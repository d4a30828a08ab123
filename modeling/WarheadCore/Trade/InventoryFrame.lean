import WarheadCore.Trade.Inventory

/-! What the requests that move and split stacks leave alone.
A stack that a request does not merge, fill, split or mail keeps its guid and its count wherever it
goes, and every bag that a place names exists.
-/

namespace WarheadCore.Trade

open Foundation

namespace Inventory

/-- Guids come from below the counter, and so do the bags that items are in. -/
structure Numbered (inventory : Inventory) : Prop where
  item : ∀ {guid item}, inventory.getItemByGuid guid = some item → guid < inventory.nextGuid
  bag
    : ∀ {guid item bag slot}, inventory.getItemByGuid guid = some item
        → item.place = .inside bag slot → bag < inventory.nextGuid

def countOf (inventory : Inventory) (guid : Guid) : Option Nat :=
  (inventory.getItemByGuid guid).map Item.count

/-- The marked stacks are in both inventories, or in none of them, with one count. -/
def Keeps (marked : Guid → Prop) (before after : Inventory) : Prop :=
  ∀ guid, marked guid → after.countOf guid = before.countOf guid

/-- What a request may do to an inventory: the marked stacks keep their counts, and the counter
grows.
-/
structure Frame (marked : Guid → Prop) (before after : Inventory) : Prop where
  keeps : Keeps marked before after
  numbered : before.Numbered → after.Numbered
  grows : before.nextGuid ≤ after.nextGuid

variable {marked : Guid → Prop} {inventory : Inventory} {checks : InventoryChecks}

theorem Frame.refl : Frame marked inventory inventory := ⟨fun _ _ => rfl, id, le_rfl⟩

theorem Frame.trans {before middle after : Inventory}
    (first : Frame marked before middle) (second : Frame marked middle after)
    : Frame marked before after :=
  ⟨fun guid member => (second.keeps guid member).trans (first.keeps guid member),
    second.numbered ∘ first.numbered, first.grows.trans second.grows⟩

/-- A place in an inventory is in a bag below the counter, if in a bag at all. -/
def Reachable (inventory : Inventory) : Place → Prop
  | .inside bag _ => bag < inventory.nextGuid
  | .slot _ => True

theorem Numbered.reachable (numbered : inventory.Numbered) {guid : Guid} {item : Item}
    (found : inventory.getItemByGuid guid = some item)
    : inventory.Reachable item.place := by
  cases place : item.place with
  | slot slot => trivial
  | inside bag slot => exact numbered.bag found place

/-- The item at a place is stored under its guid with that place. -/
theorem getItemByGuid_of_itemAt {place : Place} {entry : (_ : Guid) × Item}
    (found : inventory.itemAt place = some entry)
    : inventory.getItemByGuid entry.1 = some entry.2 ∧ entry.2.place = place := by
  obtain ⟨stored, same⟩ := Table.get?_of_search found
  exact ⟨stored, of_decide_eq_true same⟩

theorem getItemByGuid_of_getItemByPos {pos : Pos} {entry : (_ : Guid) × Item}
    (found : inventory.getItemByPos checks pos = some entry)
    : inventory.getItemByGuid entry.1 = some entry.2 := by
  obtain ⟨place, _, at_⟩ := Option.bind_eq_some_iff.mp found
  exact (getItemByGuid_of_itemAt at_).1

/-- The numbering of a list of items can be computed. -/
theorem numbered_of_entries
    (each
      : inventory.items.entries.all (fun entry =>
          decide (entry.1 < inventory.nextGuid)
            && match entry.2.place with
              | .inside bag _ => decide (bag < inventory.nextGuid)
              | .slot _ => true) = true)
    : inventory.Numbered := by
  rw [List.all_eq_true] at each
  refine ⟨fun {guid item} found => ?_, fun {guid item bag slot} found inside => ?_⟩
  all_goals
    have stored := each ⟨guid, item⟩ (Table.get?_eq_some_iff.mp found)
    rw [Bool.and_eq_true] at stored
  · exact of_decide_eq_true stored.1
  · rw [inside] at stored
    exact of_decide_eq_true stored.2

/-- Positions name slots, or places in bags that exist. -/
theorem Numbered.placeOf (numbered : inventory.Numbered) {pos : Pos} {place : Place}
    (named : inventory.placeOf checks pos = some place)
    : inventory.Reachable place := by
  unfold Inventory.placeOf at named
  split at named
  · obtain rfl := Option.some.inj named
    trivial
  · split at named
    · next bag found =>
        split at named
        · obtain rfl := Option.some.inj named
          exact numbered.item (getItemByGuid_of_itemAt found).1
        · cases named
    · cases named

/-- The next guid is not taken. -/
theorem Numbered.absent (numbered : inventory.Numbered)
    : inventory.getItemByGuid inventory.nextGuid = none := by
  by_contra present
  obtain ⟨item, found⟩ := Option.ne_none_iff_exists'.mp present
  exact absurd (numbered.item found) (lt_irrefl _)

-- The small changes

/-- A changed item whose place stays, or is one in the inventory, leaves the guids numbered. -/
theorem Numbered.modify (numbered : inventory.Numbered) (guid : Guid) {change : Item → Item}
    (placed : ∀ item, inventory.getItemByGuid guid = some item →
      inventory.Reachable (change item).place)
    : Numbered { inventory with items := inventory.items.modify guid change } := by
  refine ⟨fun {other item} found => ?_, fun {other item bag slot} found inside => ?_⟩
  all_goals
    simp only [getItemByGuid, Table.get?_modify] at found
    split at found
  · obtain ⟨stored, before, _⟩ := Option.map_eq_some_iff.mp found
    exact numbered.item before
  · exact numbered.item found
  · next same =>
      obtain ⟨stored, before, rfl⟩ := Option.map_eq_some_iff.mp found
      have reachable := placed stored (same ▸ before)
      rw [inside] at reachable
      exact reachable
  · exact numbered.bag found inside

/-- A change of one stack that keeps its place is framed where the stack is not marked. -/
theorem frame_setCount {guid : Guid} (count : Int) (free : ¬ marked guid)
    : Frame marked inventory (inventory.setCount guid count) where
  keeps other member := by
    have distinct : other ≠ guid := fun same => free (same ▸ member)
    simp only [countOf, getItemByGuid, setCount, Table.get?_modify_of_ne _ _ distinct]
  numbered numbered := numbered.modify guid fun item found =>
    show inventory.Reachable item.place from numbered.reachable found
  grows := le_rfl

/-- A stack that only changes its place keeps its count. -/
theorem frame_relocate (guid : Guid) {place : Place} (reachable : inventory.Reachable place)
    : Frame marked inventory (inventory.relocate guid place) where
  keeps other _ := by
    simp only [countOf, getItemByGuid, relocate, Table.get?_modify]
    split
    · cases inventory.items.get? other <;> rfl
    · rfl
  numbered numbered := numbered.modify guid fun _ _ => reachable
  grows := le_rfl

theorem frame_remove {guid : Guid} (free : ¬ marked guid)
    : Frame marked inventory (inventory.remove guid) where
  keeps other member := by
    have distinct : other ≠ guid := fun same => free (same ▸ member)
    simp only [countOf, getItemByGuid, remove, Table.get?_remove_of_ne _ distinct]
  numbered numbered := by
    have kept {other : Guid} {item : Item}
        (found : (inventory.remove guid).getItemByGuid other = some item)
        : inventory.getItemByGuid other = some item := by
      simp only [getItemByGuid, remove, Table.get?_remove] at found
      split at found
      · cases found
      · exact found
    exact ⟨fun found => numbered.item (kept found),
      fun found inside => numbered.bag (kept found) inside⟩
  grows := le_rfl

theorem frame_bump {next : Guid} (grows : inventory.nextGuid ≤ next)
    : Frame marked inventory { inventory with nextGuid := next } :=
  ⟨fun _ _ => rfl,
    fun numbered => ⟨fun found => (numbered.item found).trans_le grows,
      fun found inside => (numbered.bag found inside).trans_le grows⟩,
    grows⟩

/-- A new item that is stored under an unmarked guid below the next counter. -/
theorem frame_put {guid next : Guid} {item : Item} (free : ¬ marked guid) (below : guid < next)
    (grows : inventory.nextGuid ≤ next) (reachable : inventory.Reachable item.place)
    : Frame marked inventory { items := inventory.items.put guid item, nextGuid := next } where
  keeps other member := by
    have distinct : other ≠ guid := fun same => free (same ▸ member)
    simp only [countOf, getItemByGuid, Table.get?_put, if_neg distinct]
  numbered numbered := by
    refine ⟨fun {other stored} found => ?_, fun {other stored bag slot} found inside => ?_⟩
    all_goals
      simp only [getItemByGuid, Table.get?_put] at found
      split at found
    · next same => exact same ▸ below
    · exact (numbered.item found).trans_le grows
    · obtain rfl := Option.some.inj found
      rw [inside] at reachable
      exact reachable.trans_le grows
    · exact (numbered.bag found inside).trans_le grows
  grows := grows

/-- The items of a bag that go into another one keep their counts. -/
theorem frame_moveContents {empty full : Guid} (below : empty < inventory.nextGuid)
    : Frame marked inventory (inventory.moveContents empty full) where
  keeps other _ := by
    simp only [countOf, getItemByGuid, moveContents, Table.get?_mapValues, Option.map_map]
    congr 1
    funext item
    simp only [Function.comp_apply]
    split
    · split <;> rfl
    · rfl
  numbered numbered := by
    refine ⟨fun {other item} found => ?_, fun {other item bag slot} found inside => ?_⟩
    all_goals
      simp only [getItemByGuid, moveContents, Table.get?_mapValues] at found
      obtain ⟨stored, before, same⟩ := Option.map_eq_some_iff.mp found
    · exact numbered.item before
    · split at same
      · next other_ slot_ place =>
          split at same
          · subst same
            obtain ⟨rfl, _⟩ := Place.inside.inj inside
            exact below
          · subst same
            exact numbered.bag before inside
      · subst same
        exact numbered.bag before inside
  grows := le_rfl

-- SwapItem

theorem Reachable.mono {after : Inventory} {place : Place} (reachable : inventory.Reachable place)
    (grows : inventory.nextGuid ≤ after.nextGuid)
    : after.Reachable place := by
  cases place with
  | slot slot => trivial
  | inside bag slot => exact lt_of_lt_of_le reachable grows

def Names (inventory : Inventory) : SwapCase → Prop
  | .move _ place => inventory.Reachable place
  | .exchange _ _ srcPlace dstPlace contents =>
      inventory.Reachable srcPlace ∧ inventory.Reachable dstPlace
        ∧ ∀ bags ∈ contents, bags.1 < inventory.nextGuid
  | .refused | .merge _ _ _ | .fill _ _ _ _ => True

/-- The bag that is found empty is one of the two. -/
theorem empty_of_bagSwap {src dst : Pos} {srcGuid dstGuid : Guid} {bags : Guid × Guid}
    (found : inventory.bagSwap checks src dst srcGuid dstGuid = some bags)
    : bags.1 = srcGuid ∨ bags.1 = dstGuid := by
  unfold bagSwap at found
  split at found
  · exact .inl (Option.some.inj found ▸ rfl)
  · split at found
    · exact .inr (Option.some.inj found ▸ rfl)
    · cases found

theorem Numbered.names_swapBoth (numbered : inventory.Numbered) {src dst : Pos}
    {srcGuid dstGuid : Guid} {srcItem dstItem : Item}
    (srcFound : inventory.getItemByGuid srcGuid = some srcItem)
    (dstFound : inventory.getItemByGuid dstGuid = some dstItem)
    : inventory.Names (inventory.swapBoth checks src dst srcGuid dstGuid srcItem dstItem) := by
  have srcPlace := numbered.reachable srcFound
  have dstPlace := numbered.reachable dstFound
  unfold swapBoth
  split <;> [trivial; skip]
  split <;> [trivial; skip]
  split
  · split <;> trivial
  split <;> [trivial; skip]
  split
  · split
    · next empty full found =>
        split
        · refine ⟨srcPlace, dstPlace, ?_⟩
          rintro bags ⟨rfl⟩
          obtain rfl | rfl := empty_of_bagSwap found
          · exact numbered.item srcFound
          · exact numbered.item dstFound
        · trivial
    · exact ⟨srcPlace, dstPlace, by simp⟩
  · exact ⟨srcPlace, dstPlace, by simp⟩

theorem Numbered.names_swapCase (numbered : inventory.Numbered) {src dst : Pos}
    : inventory.Names (inventory.swapCase checks src dst) := by
  unfold swapCase
  split
  · trivial
  · next srcGuid srcItem srcFound =>
      have srcStored := getItemByGuid_of_getItemByPos srcFound
      dsimp only
      iterate 6 split <;> [trivial; skip]
      split
      · split
        · next place named =>
            split
            · exact numbered.placeOf named
            · trivial
        · trivial
      · next dstGuid dstItem dstFound =>
          exact numbered.names_swapBoth srcStored (getItemByGuid_of_getItemByPos dstFound)

/-- A case spares the marked stacks where it merges and fills others. -/
def SwapCase.Spares (marked : Guid → Prop) : SwapCase → Prop
  | .merge src dst _ | .fill src dst _ _ => ¬ marked src ∧ ¬ marked dst
  | .refused | .move _ _ | .exchange _ _ _ _ _ => True

theorem frame_applyCase {outcome : SwapCase} (names : inventory.Names outcome)
    (spares : SwapCase.Spares marked outcome)
    : Frame marked inventory (inventory.applyCase outcome) := by
  cases outcome with
  | refused => exact Frame.refl
  | move src place => exact frame_relocate src names
  | merge src dst sum => exact (frame_remove spares.1).trans (frame_setCount sum spares.2)
  | fill src dst left_ full =>
      exact (frame_setCount left_ spares.1).trans (frame_setCount full spares.2)
  | exchange src dst srcPlace dstPlace contents =>
      obtain ⟨srcReachable, dstReachable, empties⟩ := names
      have exchanged {moved : Inventory} (frame : Frame marked inventory moved)
          : Frame marked inventory ((moved.relocate src dstPlace).relocate dst srcPlace) := by
        have first := frame.trans (frame_relocate src (dstReachable.mono frame.grows))
        exact first.trans (frame_relocate dst (srcReachable.mono first.grows))
      cases contents with
      | none => exact exchanged Frame.refl
      | some bags => exact exchanged (frame_moveContents (empties bags rfl))

/-- No marked item is in the off hand where the request sends the off hand by mail. -/
def SparesOffhand (marked : Guid → Prop) (checks : InventoryChecks) (inventory : Inventory) : Prop :=
  checks.unequipsOffhand → checks.offhandPlace = none
    → ∀ entry ∈ inventory.itemAt (.slot EQUIPMENT_SLOT_OFFHAND), ¬ marked entry.1

theorem frame_autoUnequipOffhandIfNeed (numbered : inventory.Numbered)
    (spares : SparesOffhand marked checks inventory)
    : Frame marked inventory (inventory.autoUnequipOffhandIfNeed checks) := by
  unfold autoUnequipOffhandIfNeed
  split
  · exact Frame.refl
  · next guid item found =>
      split
      · next unequips =>
          split
          · next pos _ =>
              split
              · next place named => exact frame_relocate guid (numbered.placeOf named)
              · exact Frame.refl
          · next mailed => exact frame_remove (spares unequips mailed _ found)
      · exact Frame.refl

structure SwapSpares (marked : Guid → Prop) (checks : InventoryChecks) (inventory : Inventory)
    (src dst : Pos) : Prop where
  counts : SwapCase.Spares marked (inventory.swapCase checks src dst)
  offhand
    : (inventory.swapCase checks src dst).checksOffhand (checks.kind dst = .equipment)
        → SparesOffhand marked checks (inventory.applyCase (inventory.swapCase checks src dst))

theorem frame_swapItem (numbered : inventory.Numbered) {src dst : Pos}
    (spares : SwapSpares marked checks inventory src dst)
    : Frame marked inventory (inventory.swapItem checks src dst) := by
  have moved := frame_applyCase numbered.names_swapCase spares.counts
  unfold swapItem
  dsimp only
  split
  · next looks =>
      exact moved.trans
        (frame_autoUnequipOffhandIfNeed (moved.numbered numbered) (spares.offhand looks))
  · exact moved

-- SplitItem

structure Located (fresh : Guid) (original current : Inventory) : Prop where
  stood
    : ∀ {place entry}, current.itemAt place = some entry → entry.1 < fresh
        → ∃ item, original.itemAt place = some ⟨entry.1, item⟩ ∧ item.entry = entry.2.entry

variable {fresh : Guid} {original current : Inventory}

theorem itemAt_setCount (guid : Guid) (count : Int) (place : Place)
    : (inventory.setCount guid count).itemAt place
      = (inventory.itemAt place).map (fun entry =>
          if entry.1 = guid then ⟨entry.1, { entry.2 with count := toUInt32 count }⟩ else entry) := by
  let change (item : Item) : Item := { item with count := toUInt32 count }
  have unseen (item : Item) : decide ((change item).place = place) = decide (item.place = place) :=
    rfl
  exact Table.search_modify (fun (_ : Guid) (item : Item) => decide (item.place = place)) unseen

theorem Located.setCount (located : Located fresh original current) (guid : Guid) (count : Int)
    : Located fresh original (current.setCount guid count) := by
  refine ⟨fun {place entry} found below => ?_⟩
  rw [itemAt_setCount] at found
  obtain ⟨before, there, rfl⟩ := Option.map_eq_some_iff.mp found
  split at below
  · next here =>
      obtain ⟨item, stood, same⟩ := located.stood there below
      exact ⟨item, by rw [if_pos here, stood], by rw [if_pos here, same]⟩
  · next elsewhere =>
      obtain ⟨item, stood, same⟩ := located.stood there below
      exact ⟨item, by rw [if_neg elsewhere, stood], by rw [if_neg elsewhere, same]⟩

theorem Located.put (located : Located fresh original current) {guid next : Guid} {item : Item}
    (absent : current.getItemByGuid guid = none) (new : fresh ≤ guid)
    : Located fresh original { items := current.items.put guid item, nextGuid := next } := by
  refine ⟨fun {place entry} found below => ?_⟩
  rw [itemAt, Table.search_put_of_absent absent] at found
  split at found
  · obtain rfl := Option.some.inj found
    exact absurd below (by simpa using new)
  · exact located.stood found below

/-- A position that names an older item now named it before. -/
theorem Located.getItemByPos (located : Located fresh original current)
    (numbered : original.Numbered) (counter : original.nextGuid ≤ fresh) {pos : Pos}
    {entry : (_ : Guid) × Item} (found : current.getItemByPos checks pos = some entry)
    (below : entry.1 < fresh)
    : ∃ item, original.getItemByPos checks pos = some ⟨entry.1, item⟩ := by
  obtain ⟨place, named, there⟩ := Option.bind_eq_some_iff.mp found
  obtain ⟨item, stood, _⟩ := located.stood there below
  have namedBefore : original.placeOf checks pos = some place := by
    unfold placeOf at named ⊢
    split at named
    · next outer => rw [if_pos outer, named]
    · next inner =>
        split at named
        · next bag bagThere =>
            split at named
            · next isBag =>
                obtain rfl := Option.some.inj named
                have stored := getItemByGuid_of_itemAt stood
                have older := (numbered.bag stored.1 stored.2).trans_le counter
                obtain ⟨bagItem, bagStood, same⟩ := located.stood bagThere older
                rw [if_neg inner, bagStood]
                simp only [same, isBag, if_true]
            · cases named
        · cases named
  exact ⟨item, Option.bind_eq_some_iff.mpr ⟨place, namedBefore, stood⟩⟩

/-- The state of StoreItem between two places: the new item is in no slot yet. -/
structure Storing (fresh : Guid) (original current : Inventory) : Prop where
  numbered : current.Numbered
  located : Located fresh original current
  absent : current.getItemByGuid fresh = none
  above : fresh < current.nextGuid

/-- A store grows an unmarked stack, or puts a new item where none is. -/
theorem Storing.storeAt (storing : Storing fresh original current) (entry : Nat) (pos : Pos)
    (count : Nat) (clone : Bool) (below : ∀ guid, marked guid → guid < fresh)
    (spares : ∀ stored ∈ current.getItemByPos checks pos, ¬ marked stored.1)
    : Frame marked current (current.storeAt checks fresh entry pos count clone)
      ∧ Located fresh original (current.storeAt checks fresh entry pos count clone) := by
  have unmarked {guid : Guid} (new : fresh ≤ guid) : ¬ marked guid :=
    fun member => absurd (below guid member) (Nat.not_lt.mpr new)
  have later := Nat.le_of_lt storing.above
  unfold Inventory.storeAt
  split
  · next stored item found =>
      exact ⟨frame_setCount _ (spares _ found), storing.located.setCount _ _⟩
  · split
    · exact ⟨Frame.refl, storing.located⟩
    · next place named =>
        have reachable := storing.numbered.placeOf named
        split
        · split
          · exact ⟨Frame.refl, storing.located⟩
          · exact ⟨frame_put (unmarked later) (Nat.lt_succ_self _) (Nat.le_succ _) reachable,
              storing.located.put storing.numbered.absent later⟩
        · exact ⟨frame_put (unmarked le_rfl) storing.above le_rfl reachable,
            storing.located.put storing.absent le_rfl⟩

/-- A clone that is stored leaves the new item's guid to it. -/
theorem Storing.absent_storeAt (storing : Storing fresh original current) (entry : Nat) (pos : Pos)
    (count : Nat)
    : (current.storeAt checks fresh entry pos count true).getItemByGuid fresh = none := by
  have absent : current.items.get? fresh = none := storing.absent
  have distinct : fresh ≠ current.nextGuid := Nat.ne_of_lt storing.above
  unfold Inventory.storeAt getItemByGuid
  split
  · simp [Inventory.setCount, Table.get?_modify, absent]
  · split
    · exact absent
    · rw [if_pos rfl]
      split
      · exact absent
      · simp [Table.get?_put, distinct, absent]

/-- StoreItem over all places, where none of them held a marked stack before. -/
theorem Storing.storeItem (storing : Storing fresh original current) (entry : Nat)
    {plan : List (Pos × Nat)} (numbered : original.Numbered) (counter : original.nextGuid ≤ fresh)
    (below : ∀ guid, marked guid → guid < fresh)
    (spares : ∀ target ∈ plan, ∀ stored ∈ original.getItemByPos checks target.1, ¬ marked stored.1)
    : Frame marked current (storeItem checks fresh entry plan current)
      ∧ Located fresh original (Inventory.storeItem checks fresh entry plan current) := by
  have spared {current : Inventory} (located : Located fresh original current)
      {target : Pos × Nat} (member : target ∈ plan)
      : ∀ stored ∈ current.getItemByPos checks target.1, ¬ marked stored.1 := by
    intro stored found isMarked
    obtain ⟨item, before⟩ := located.getItemByPos numbered counter found (below _ isMarked)
    exact spares target member _ before isMarked
  induction plan generalizing current with
  | nil => exact ⟨Frame.refl, storing.located⟩
  | cons target rest ih =>
      obtain ⟨pos, count⟩ := target
      have here := spared storing.located (List.mem_cons_self (a := (pos, count)))
      cases rest with
      | nil => exact storing.storeAt entry pos count false below here
      | cons next rest =>
          obtain ⟨frame, located⟩ := storing.storeAt entry pos count true below here
          have after : Storing fresh original (current.storeAt checks fresh entry pos count true) :=
            ⟨frame.numbered storing.numbered, located, storing.absent_storeAt entry pos count,
              storing.above.trans_le frame.grows⟩
          obtain ⟨rest_, final⟩ := ih after
            (fun target member => spares target (List.mem_cons_of_mem _ member))
            (fun located _ member => spared located (List.mem_cons_of_mem _ member))
          exact ⟨frame.trans rest_, final⟩

/-- The places of a split hold no marked stack, and no marked item goes to the mail. -/
structure SplitSpares (marked : Guid → Prop) (checks : InventoryChecks) (inventory : Inventory)
    (dst : Pos) (plan : List (Pos × Nat)) : Prop where
  places : ∀ target ∈ plan, ∀ stored ∈ inventory.getItemByPos checks target.1, ¬ marked stored.1
  offhand : checks.kind dst = .equipment → SparesOffhand marked checks inventory

/-- The stack that is split is not in the trade window. -/
theorem inTrade_of_splitPlan {inTrade : Guid → Bool} {src dst : Pos} {count : Nat} {guid : Guid}
    {item : Item} {plan : List (Pos × Nat)}
    (found : inventory.splitPlan checks inTrade src dst count = some (guid, item, plan))
    : inTrade guid = false := by
  unfold splitPlan at found
  split at found
  · cases found
  · iterate 3 (split at found <;> [cases found; skip])
    split at found
    · cases found
    · next outside =>
        split at found
        · cases found
        · obtain ⟨places, _, same⟩ := Option.map_eq_some_iff.mp found
          cases same
          simpa using outside

theorem frame_splitItem (numbered : inventory.Numbered) {inTrade : Guid → Bool} {src dst : Pos}
    {count : Nat} (below : ∀ guid, marked guid → guid < inventory.nextGuid)
    (traded : ∀ guid, marked guid → inTrade guid)
    (spares
      : ∀ {guid item plan}, inventory.splitPlan checks inTrade src dst count = some (guid, item, plan)
          → SplitSpares marked checks inventory dst plan)
    : Frame marked inventory (inventory.splitItem checks inTrade src dst count) := by
  unfold splitItem
  split
  · exact Frame.refl
  · next guid item plan planned =>
      have spared := spares planned
      have free : ¬ marked guid := fun member => by
        simpa [inTrade_of_splitPlan planned] using traded guid member
      have taken : Frame marked inventory (inventory.setCount guid ((item.count : Int) - count)) :=
        frame_setCount _ free
      have numbered_ := taken.numbered numbered
      have bumped : Frame marked (inventory.setCount guid ((item.count : Int) - count))
          { inventory.setCount guid ((item.count : Int) - count) with
            nextGuid := inventory.nextGuid + 1 } :=
        frame_bump (Nat.le_succ _)
      have start : Located inventory.nextGuid inventory inventory :=
        ⟨fun {_ entry} found _ => ⟨entry.2, found, rfl⟩⟩
      have moved := start.setCount guid ((item.count : Int) - count)
      have storing : Storing inventory.nextGuid inventory
          { inventory.setCount guid ((item.count : Int) - count) with
            nextGuid := inventory.nextGuid + 1 } :=
        ⟨bumped.numbered numbered_, ⟨moved.stood⟩, numbered_.absent, Nat.lt_succ_self _⟩
      obtain ⟨stored, located⟩ :=
        storing.storeItem item.entry numbered le_rfl below spared.places
      have whole := (taken.trans bumped).trans stored
      dsimp only
      split
      · next equips =>
          refine whole.trans (frame_autoUnequipOffhandIfNeed (whole.numbered numbered) ?_)
          intro unequips mailed entry found isMarked
          obtain ⟨before, stood, _⟩ := located.stood found (below _ isMarked)
          exact spared.offhand equips unequips mailed _ stood isMarked
      · exact whole

-- Requests

def Spares (marked : Guid → Prop) (checks : InventoryChecks) (inTrade : Guid → Bool)
    (inventory : Inventory) : InventoryRequest → Prop
  | .swapItem src dst =>
      mayHandleSwap checks src dst → SwapSpares marked checks inventory src dst
  | .splitItem src dst count =>
      mayHandleSplit checks src dst count
        → ∀ {guid item plan}, inventory.splitPlan checks inTrade src dst count = some (guid, item, plan)
          → SplitSpares marked checks inventory dst plan

/-- A request that spares the marked stacks keeps their counts, the two handlers in turn. -/
theorem frame_handle (numbered : inventory.Numbered) {inTrade : Guid → Bool}
    {request : InventoryRequest} (below : ∀ guid, marked guid → guid < inventory.nextGuid)
    (traded : ∀ guid, marked guid → inTrade guid)
    (spares : Spares marked checks inTrade inventory request)
    : Frame marked inventory (inventory.handle checks inTrade request) := by
  cases request with
  | swapItem src dst =>
      unfold handle handleSwapItem
      dsimp only
      split
      · next allowed => exact frame_swapItem numbered (spares allowed)
      · exact Frame.refl
  | splitItem src dst count =>
      unfold handle handleSplitItem
      dsimp only
      split
      · next allowed => exact frame_splitItem numbered below traded (spares allowed)
      · exact Frame.refl

/-- Nothing is marked: every request only keeps the numbering. -/
theorem frame_handle_unmarked (numbered : inventory.Numbered) {inTrade : Guid → Bool}
    {request : InventoryRequest}
    : Frame (fun _ => False) inventory (inventory.handle checks inTrade request) := by
  have free {offhand : Inventory} : SparesOffhand (fun _ => False) checks offhand :=
    fun _ _ _ _ => id
  have spares : Spares (fun _ => False) checks inTrade inventory request := by
    cases request with
    | swapItem src dst =>
        refine fun _ => ⟨?_, fun _ => free⟩
        cases inventory.swapCase checks src dst <;> simp [SwapCase.Spares]
    | splitItem src dst count => exact fun _ _ _ _ _ => ⟨fun _ _ _ _ => id, fun _ => free⟩
  exact frame_handle numbered (by simp) (by simp) spares

end Inventory

end WarheadCore.Trade
