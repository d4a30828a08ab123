import WarheadCore.Foundation.MachineIntegers
import WarheadCore.Foundation.Runs

/-! The twelve slots for items that a player has sold, from which he can buy them back.
A sale goes to the current slot if it is free. Otherwise a free slot or the oldest item is searched,
but what is found free is not used.
-/

namespace WarheadCore.Inventory

open Foundation Foundation.Runs

def buybackSlotStart : Nat := 74
def buybackSlotEnd : Nat := 86

/-- The items in the slots with their prices and timestamps, the current slot, and the items that
were discarded, in their order. Items are named by their guids.
-/
structure BuyBack where
  items : Nat → Option Nat := fun _ => none
  prices : Nat → Nat := fun _ => 0
  timestamps : Nat → Nat := fun _ => 0
  current : Nat := buybackSlotStart
  removed : List Nat := []

namespace BuyBack

variable (buyBack : BuyBack)

def removeItemFromBuyBackSlot (slot : Nat) (del : Bool) : BuyBack :=
  if buybackSlotStart ≤ slot ∧ slot < buybackSlotEnd then
    let items := Function.update buyBack.items slot none
    { items
      prices := Function.update buyBack.prices slot 0
      timestamps := Function.update buyBack.timestamps slot 0
      -- if the current slot is filled, it is set to the slot that is free now
      current := if (items buyBack.current).isSome then slot else buyBack.current
      removed :=
        if del then buyBack.removed ++ (buyBack.items slot).toList else buyBack.removed }
  else buyBack

/-- The search from a slot on: the slot that is free, if one is found, and the oldest one until
then.
-/
def searchSlot : List Nat → Nat → Nat → Nat → Nat × Nat
  | [], slot, _, oldestSlot => (slot, oldestSlot)
  | i :: rest, slot, oldestTime, oldestSlot =>
      if buyBack.items i = none then (i, oldestSlot)
      else if oldestTime > buyBack.timestamps i then searchSlot rest slot (buyBack.timestamps i) i
      else searchSlot rest slot oldestTime oldestSlot

def otherSlots : List Nat :=
  List.range' (buybackSlotStart + 1) (buybackSlotEnd - buybackSlotStart - 1)

/-- The slot for a sale: the oldest one takes the place of a free one that was found. -/
def slotForSale : Nat :=
  if (buyBack.items buyBack.current).isSome then
    let search := buyBack.searchSlot otherSlots buyBack.current
      (buyBack.timestamps buybackSlotStart) buybackSlotStart
    let slot := search.2
    slot
  else buyBack.current

/-- AddItemToBuyBackSlot; `sinceLogin` is the game time less the time of the login. -/
def addItemToBuyBackSlot (pItem money : Nat) (sinceLogin : Int) : BuyBack :=
  let slot := buyBack.slotForSale
  let freed := buyBack.removeItemFromBuyBackSlot slot true
  { items := Function.update freed.items slot (some pItem)
    prices := Function.update freed.prices slot money
    timestamps := Function.update freed.timestamps slot (toUInt32 (sinceLogin + 30 * 3600))
    current := if freed.current < buybackSlotEnd - 1 then freed.current + 1 else freed.current
    removed := freed.removed }

end BuyBack

/-- Sales, and attempts to buy back the item of a slot, with whether the player can pay and store
it.
-/
inductive BuyBackAction where
  | sell (pItem money : Nat) (sinceLogin : Int)
  | buyBack (slot : Nat) (possible : Bool)

def buyBackStep (buyBack : BuyBack) : BuyBackAction → BuyBack
  | .sell pItem money sinceLogin => buyBack.addItemToBuyBackSlot pItem money sinceLogin
  | .buyBack slot possible =>
      if buybackSlotStart ≤ slot ∧ slot < buybackSlotEnd ∧ (buyBack.items slot).isSome ∧ possible then
        buyBack.removeItemFromBuyBackSlot slot false
      else buyBack

-- The law of sales

def IsBuyBackSlot (slot : Nat) : Prop := buybackSlotStart ≤ slot ∧ slot < buybackSlotEnd

instance (slot : Nat) : Decidable (IsBuyBackSlot slot) := inferInstanceAs (Decidable (_ ∧ _))

structure SoldInto (before : BuyBack) (pItem : Nat) (after : BuyBack) (slot : Nat) : Prop where
  inRange : IsBuyBackSlot slot
  stored : after.items slot = some pItem
  others : ∀ other, other ≠ slot → after.items other = before.items other
  discarded : after.removed = before.removed ++ (before.items slot).toList

structure FullWithOldest (buyBack : BuyBack) (slot : Nat) : Prop where
  full : ∀ other, IsBuyBackSlot other → (buyBack.items other).isSome
  oldest
    : ∀ other, IsBuyBackSlot other → buyBack.timestamps slot ≤ buyBack.timestamps other

/-- What a step should do. A sale discards an item only from full slots, and then an oldest one. When
an item is bought back nothing is discarded, and the current slot is free after it.
-/
def BuyBackLaw (before : BuyBack) (action : BuyBackAction) : Prop :=
  let after := buyBackStep before action
  match action with
  | .sell pItem _ _ =>
      ∃ slot, SoldInto before pItem after slot
        ∧ ((before.items slot).isSome → FullWithOldest before slot)
  | .buyBack slot possible =>
      after.removed = before.removed
        ∧ (∀ other, other ≠ slot → after.items other = before.items other)
        ∧ (IsBuyBackSlot slot → (before.items slot).isSome → possible →
          after.items slot = none ∧ after.items after.current = none)

/-- A sale finds the current slot free, or the first one, or all slots are occupied. -/
def BuyBackAction.Found (buyBack : BuyBack) : BuyBackAction → Prop
  | .sell .. =>
      (buyBack.items buyBack.current).isSome → (buyBack.items buybackSlotStart).isSome
        → ∀ slot, IsBuyBackSlot slot → (buyBack.items slot).isSome
  | .buyBack .. => True

/-- The current slot is one of the slots, and free slots have no timestamp. -/
structure BuyBack.Good (buyBack : BuyBack) : Prop where
  inRange : IsBuyBackSlot buyBack.current
  clean : ∀ slot, buyBack.items slot = none → buyBack.timestamps slot = 0

-- The search for the oldest item

namespace BuyBack

variable {buyBack : BuyBack}

/-- The oldest slot is the first one or one of the others. -/
theorem oldest_mem (slots : List Nat) (slot time first : Nat)
    : (buyBack.searchSlot slots slot time first).2 ∈ first :: slots := by
  induction slots generalizing time first with
  | nil => exact List.mem_singleton_self first
  | cons i rest ih =>
      unfold searchSlot
      split
      · exact List.mem_cons_self
      · split
        · exact List.mem_cons_of_mem first (ih (buyBack.timestamps i) i)
        · rcases List.mem_cons.mp (ih time first) with same | later
          · rw [same]
            exact List.mem_cons_self
          · exact List.mem_cons_of_mem first (List.mem_cons_of_mem i later)

/-- The search moves from an occupied slot to occupied slots only. -/
theorem oldest_occupied (slots : List Nat) (slot time : Nat) {first : Nat}
    (occupied : (buyBack.items first).isSome)
    : (buyBack.items (buyBack.searchSlot slots slot time first).2).isSome := by
  induction slots generalizing time first with
  | nil => exact occupied
  | cons i rest ih =>
      unfold searchSlot
      split
      · exact occupied
      · next found =>
          split
          · exact ih (buyBack.timestamps i) (Option.isSome_iff_ne_none.mpr found)
          · exact ih time occupied

/-- Nothing is older than a slot without a timestamp. -/
theorem oldest_of_no_timestamp (slots : List Nat) (slot first : Nat)
    : (buyBack.searchSlot slots slot 0 first).2 = first := by
  induction slots with
  | nil => rfl
  | cons i rest ih =>
      unfold searchSlot
      split
      · rfl
      · rw [if_neg (Nat.not_lt_zero _)]
        exact ih

/-- Among occupied slots the search finds an oldest one. -/
theorem oldest_le {slots : List Nat} (occupied : ∀ i ∈ slots, (buyBack.items i).isSome)
    (slot first : Nat)
    : ∀ i ∈ first :: slots,
        buyBack.timestamps
            (buyBack.searchSlot slots slot (buyBack.timestamps first) first).2
          ≤ buyBack.timestamps i := by
  induction slots generalizing first with
  | nil =>
      intro i member
      rw [List.mem_singleton.mp member]
      exact Nat.le_refl _
  | cons next rest ih =>
      obtain ⟨here, later⟩ := List.forall_mem_cons.mp occupied
      intro i member
      unfold searchSlot
      rw [if_neg (Option.isSome_iff_ne_none.mp here)]
      split
      · next older =>
          rcases List.mem_cons.mp member with rfl | member
          · exact (ih later next next List.mem_cons_self).trans older.le
          · exact ih later next i member
      · next younger =>
          rcases List.mem_cons.mp member with rfl | member
          · exact ih later i i List.mem_cons_self
          · rcases List.mem_cons.mp member with rfl | member
            · exact (ih later first first List.mem_cons_self).trans (Nat.not_lt.mp younger)
            · exact ih later first i (List.mem_cons_of_mem first member)

theorem isBuyBackSlot_iff (slot : Nat)
    : IsBuyBackSlot slot ↔ slot ∈ buybackSlotStart :: otherSlots := by
  unfold IsBuyBackSlot otherSlots buybackSlotStart buybackSlotEnd
  rw [List.mem_cons, List.mem_range'_1]
  omega

/-- The slot for a sale is one of the slots. -/
theorem Good.slotForSale (good : buyBack.Good) : IsBuyBackSlot buyBack.slotForSale := by
  unfold BuyBack.slotForSale
  split
  · exact (isBuyBackSlot_iff _).mpr (oldest_mem _ _ _ _)
  · exact good.inRange

-- One step

theorem removeItem_of_inRange {slot : Nat} (inRange : IsBuyBackSlot slot) (del : Bool)
    : buyBack.removeItemFromBuyBackSlot slot del
      = { items := Function.update buyBack.items slot none
          prices := Function.update buyBack.prices slot 0
          timestamps := Function.update buyBack.timestamps slot 0
          current :=
            if (Function.update buyBack.items slot none buyBack.current).isSome then slot
            else buyBack.current
          removed :=
            if del then buyBack.removed ++ (buyBack.items slot).toList else buyBack.removed } :=
  if_pos inRange

/-- A sale takes the slot for it, and discards the item that was there. -/
theorem sold_into (good : buyBack.Good) (pItem money : Nat) (sinceLogin : Int)
    : SoldInto buyBack pItem (buyBack.addItemToBuyBackSlot pItem money sinceLogin)
        buyBack.slotForSale := by
  unfold addItemToBuyBackSlot
  dsimp only
  rw [removeItem_of_inRange good.slotForSale]
  refine ⟨good.slotForSale, Function.update_self .., fun other different => ?_, rfl⟩
  dsimp only
  rw [Function.update_of_ne different, Function.update_of_ne different]

/-- A sale obeys the law if and only if it finds a free slot where it looks for one. -/
theorem sale_law_iff (good : buyBack.Good) (pItem money : Nat) (sinceLogin : Int)
    : BuyBackLaw buyBack (.sell pItem money sinceLogin)
      ↔ (BuyBackAction.sell pItem money sinceLogin).Found buyBack := by
  have sold := sold_into good pItem money sinceLogin
  constructor
  · rintro ⟨slot, other, discards⟩ current first
    -- both slots held the item that is discarded
    have taken : (buyBack.items buyBack.slotForSale).isSome := by
      unfold slotForSale
      rw [if_pos current]
      exact oldest_occupied _ _ _ first
    have same : (buyBack.items slot).toList = (buyBack.items buyBack.slotForSale).toList :=
      List.append_cancel_left (other.discarded.symm.trans sold.discarded)
    refine (discards ?_).full
    obtain ⟨old, held⟩ := Option.isSome_iff_exists.mp taken
    rw [held] at same
    exact Option.isSome_iff_ne_none.mpr (fun free => by rw [free] at same; cases same)
  · intro found
    refine ⟨buyBack.slotForSale, sold, fun taken => ?_⟩
    have current : (buyBack.items buyBack.current).isSome := by
      by_contra free
      rw [slotForSale, if_neg free] at taken
      exact free taken
    have first : (buyBack.items buybackSlotStart).isSome := by
      by_contra free
      have none' := Option.not_isSome_iff_eq_none.mp free
      rw [slotForSale, if_pos current, good.clean _ none'] at taken
      dsimp only at taken
      rw [oldest_of_no_timestamp] at taken
      exact free taken
    have full := found current first
    refine ⟨full, fun other inRange => ?_⟩
    unfold slotForSale
    rw [if_pos current]
    refine oldest_le (fun i member => full i ?_) _ _ other ((isBuyBackSlot_iff other).mp inRange)
    exact (isBuyBackSlot_iff i).mpr (List.mem_cons_of_mem _ member)

/-- The law of buying back holds of every state. -/
theorem buy_back_law (slot : Nat) (possible : Bool)
    : BuyBackLaw buyBack (.buyBack slot possible) := by
  unfold BuyBackLaw buyBackStep
  dsimp only
  split
  · next bought =>
      have inRange : IsBuyBackSlot slot := ⟨bought.1, bought.2.1⟩
      rw [removeItem_of_inRange inRange]
      refine ⟨rfl, fun other different => Function.update_of_ne different .., fun _ _ _ => ?_⟩
      refine ⟨Function.update_self .., ?_⟩
      dsimp only
      split
      · exact Function.update_self ..
      · next free => exact Option.not_isSome_iff_eq_none.mp free
  · next refused =>
      refine ⟨rfl, fun _ _ => rfl, fun inRange held possible => ?_⟩
      exact absurd ⟨inRange.1, inRange.2, held, possible⟩ refused

theorem Good.removeItem (good : buyBack.Good) {slot : Nat} (inRange : IsBuyBackSlot slot)
    (del : Bool)
    : (buyBack.removeItemFromBuyBackSlot slot del).Good := by
  rw [removeItem_of_inRange inRange]
  constructor
  case inRange =>
    dsimp only
    split
    · exact inRange
    · exact good.inRange
  case clean =>
    intro other free
    dsimp only at free ⊢
    by_cases same : other = slot
    · rw [same, Function.update_self]
    · rw [Function.update_of_ne same] at free ⊢
      exact good.clean other free

/-- Every step keeps the current slot in range and free slots without timestamps. -/
theorem Good.step (good : buyBack.Good) (action : BuyBackAction)
    : (buyBackStep buyBack action).Good := by
  cases action with
  | sell pItem money sinceLogin =>
      have freed := good.removeItem good.slotForSale true
      constructor
      case inRange =>
        have before := freed.inRange
        unfold buyBackStep BuyBack.addItemToBuyBackSlot
        unfold IsBuyBackSlot buybackSlotStart buybackSlotEnd at before ⊢
        dsimp only
        split <;> omega
      case clean =>
        intro other free
        unfold buyBackStep BuyBack.addItemToBuyBackSlot at free ⊢
        dsimp only at free ⊢
        by_cases same : other = buyBack.slotForSale
        · rw [same, Function.update_self] at free
          cases free
        · rw [Function.update_of_ne same] at free ⊢
          exact freed.clean other free
  | buyBack slot possible =>
      unfold buyBackStep
      dsimp only
      split
      · next bought => exact good.removeItem ⟨bought.1, bought.2.1⟩ false
      · exact good

end BuyBack

theorem BuyBack.good_new : ({} : BuyBack).Good := ⟨by decide, fun _ _ => rfl⟩

/-- One step obeys the law if and only if a sale finds a free slot where it looks for one. -/
theorem buy_back_step_iff {buyBack : BuyBack} (good : buyBack.Good) (action : BuyBackAction)
    : BuyBackLaw buyBack action ↔ action.Found buyBack := by
  cases action with
  | sell pItem money sinceLogin => exact BuyBack.sale_law_iff good pItem money sinceLogin
  | buyBack slot possible => exact iff_of_true (BuyBack.buy_back_law slot possible) trivial

/-- In every sequence of sales and attempts to buy back, the current slot stays in range, and the law
holds of every step if and only if every sale finds a free slot where it looks for one.
-/
theorem buy_back_law_iff (actions : List BuyBackAction)
    : EachState buyBackStep (fun buyBack => IsBuyBackSlot buyBack.current) {} actions
      ∧ (EachStep buyBackStep BuyBackLaw {} actions
        ↔ EachStep buyBackStep (fun buyBack action => action.Found buyBack) {} actions) := by
  have preserved (buyBack : BuyBack) (action : BuyBackAction) (good : buyBack.Good) (_ : True)
      : (buyBackStep buyBack action).Good :=
    good.step action
  have free : EachStep buyBackStep (fun _ _ => True) {} actions :=
    eachStep_of_forall (fun _ _ => trivial) _ actions
  exact ⟨(eachState_of_invariant preserved BuyBack.good_new free).imp (fun _ good => good.inRange),
    eachStep_congr_of_invariant preserved (fun _ action good _ => buy_back_step_iff good action)
      BuyBack.good_new free⟩

/-- Twelve sales, of which the second is bought back after the third. -/
def salesWithOneBack : List BuyBackAction :=
  [.sell 1 0 1, .sell 2 0 2, .sell 3 0 3, .buyBack 75 true, .sell 4 0 4, .sell 5 0 5, .sell 6 0 6,
    .sell 7 0 7, .sell 8 0 8, .sell 9 0 9, .sell 10 0 10, .sell 11 0 11, .sell 12 0 12]

/-- The slot of the second item is free when the next item is sold, and the first one is discarded all
the same.
-/
theorem free_slot_is_not_used
    : (run buyBackStep {} salesWithOneBack).items 75 = none
      ∧ (run buyBackStep {} (salesWithOneBack ++ [.sell 13 0 13])).removed = [1]
      ∧ ¬ EachStep buyBackStep BuyBackLaw {} (salesWithOneBack ++ [.sell 13 0 13]) := by
  refine ⟨by decide +kernel, by decide +kernel, fun law => ?_⟩
  obtain ⟨-, last, -⟩ := eachStep_append.mp law
  have good : (run buyBackStep {} salesWithOneBack).Good :=
    run_of_invariant (fun _ action good _ => good.step action) BuyBack.good_new
      (eachStep_of_forall (fun _ _ => trivial) _ salesWithOneBack)
  have found := (buy_back_step_iff good _).mp last (by decide +kernel) (by decide +kernel) 75
    (by decide)
  exact absurd found (by decide +kernel)

end WarheadCore.Inventory
