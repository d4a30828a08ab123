import WarheadCore.Guilds.BankItems

/-! Every move between bank and bags keeps the items.
A plan is made while all objects are still at their places; it fits the places as they are when
the moved objects have left, so executing it keeps every unit and every object.
-/

namespace WarheadCore.Guilds

open Foundation WarheadCore.Items

/-- Plans of Player::CanStoreItem fit the bags, with a swapped place taken as empty, and place the
whole item.
-/
structure PlayerStorage.Correct (storage : PlayerStorage) : Prop where
  fits : ∀ holdings bag slot item swap vec, holdings.Sound storage.rules →
    item.Stacked storage.rules → storage.canStoreItem holdings bag slot item swap = .ok vec →
      Fits storage.rules
        (fun place => if swap ∧ place = .player bag slot then none
          else holdings.items.get? place) item vec
  whole : ∀ holdings bag slot item swap vec, holdings.Sound storage.rules →
    item.Stacked storage.rules → storage.canStoreItem holdings bag slot item swap = .ok vec →
      placed vec = item.count
  own : ∀ holdings bag slot item swap vec,
    storage.canStoreItem holdings bag slot item swap = .ok vec →
      ∀ place ∈ vec.map Prod.fst, ∃ bag slot, place = .player bag slot

/-- A side the handlers name: a slot of a bank tab, or none of them, or any of the player's. -/
def Place.Named : Place → Prop
  | .bank _ slotId => slotId < guildBankMaxSlots ∨ slotId = nullSlot
  | .player _ _ => True

def BankState.seen (state : BankState) (swap : Bool) (side : Place) (item : Item) (place : Place)
    : Option Item :=
  if swap ∧ place = side then none
  else (state.holdings.items.get? place).filter (fun stored => stored.guid != item.guid)

/-- A plan sees what is there, but for its own item and the place of a swap. -/
theorem BankState.seen_eq {state : BankState} {swap : Bool} {side place : Place} {item : Item}
    (elsewhere : ¬ (swap = true ∧ place = side))
    (others : ∀ stored, state.holdings.items.get? place = some stored → stored.guid ≠ item.guid)
    : state.seen swap side item place = state.holdings.items.get? place := by
  unfold seen
  rw [if_neg elsewhere]
  cases held : state.holdings.items.get? place with
  | none => rfl
  | some stored => exact (Option.filter_some ..).trans (if_pos (bne_iff_ne.mpr (others stored held)))

/-- What a request does to the items: it keeps them, and nothing changes when it is refused. -/
structure KeepsItems (rules : ItemRules Place) (before : BankState) (outcome : Bool × BankState)
    : Prop where
  conserves : Conserves rules before.holdings outcome.2.holdings
  refused : outcome.1 = false →
    outcome.2.holdings.items = before.holdings.items ∧ outcome.2.live = before.live

/-- A refusal that leaves the state keeps the items. -/
theorem KeepsItems.of_refused {rules : ItemRules Place} {state : BankState}
    (sound : state.holdings.Sound rules)
    : KeepsItems rules state (false, state) :=
  ⟨.refl sound, fun _ => ⟨rfl, rfl⟩⟩

-- Reservations

/-- The reserved places fit, and with the units left they make up the whole item. -/
structure Reserves (rules : ItemRules Place) (view : Place → Option Item) (item : Item)
    (reserved : Reservation) : Prop where
  fits : Fits rules view item reserved.vec
  whole : placed reserved.vec + reserved.count = item.count

section Planning

variable {rules : ItemRules Place} {view : Place → Option Item} {item : Item}

/-- Nothing is reserved at the start. -/
theorem Reserves.start : Reserves rules view item { vec := [], count := item.count } :=
  ⟨⟨by simp, by simp⟩, by simp [placed]⟩

/-- Reserving space at a place keeps the plan fit, when there are units left to reserve for. -/
theorem Reserves.reserveSpace {reserved result : Reservation} (stacked : item.Stacked rules)
    (reserves : Reserves rules view item reserved) (positive : 0 < reserved.count) {place : Place}
    (done : Guilds.reserveSpace rules place item (view place) reserved = some result)
    : Reserves rules view item result := by
  obtain ⟨space, spaced, rfl⟩ := Option.map_eq_some_iff.mp done
  obtain ⟨some', limit⟩ := stacked
  have takes : Takes rules item (view place) (min space reserved.count) := by
    unfold Takes
    cases there : view place with
    | none =>
        simp only [there, Option.some.injEq] at spaced
        simp only
        omega
    | some stored =>
        simp only [there, Option.ite_none_left_eq_some, Option.some.injEq] at spaced
        obtain ⟨room, size⟩ := spaced
        rw [not_or, not_not] at room
        exact ⟨by omega, room.1, by omega⟩
  simp only
  split
  · exact reserves
  · rename_i new
    refine ⟨⟨?_, ?_⟩, ?_⟩
    · rw [List.map_append]
      exact List.nodup_append.mpr ⟨reserves.fits.distinct, by simp, by
        intro other member other' single same
        obtain rfl : other' = place := by simpa using single
        exact new (same ▸ member)⟩
    · intro step member
      rcases List.mem_append.mp member with earlier | single
      · exact reserves.fits.takes step earlier
      · obtain rfl := List.mem_singleton.mp single
        exact takes
    · have sum : placed (reserved.vec ++ [(place, min space reserved.count)])
          = placed reserved.vec + min space reserved.count := by simp [placed]
      have whole := reserves.whole
      simp only [sum]
      omega

end Planning

section Bank

variable {state : BankState} {rules : ItemRules Place} {item : Item}

/-- A pass with no units left reserves nothing. -/
theorem canStoreItemInTab_of_done {tabId skipSlotId : Nat} {merge : Bool} {reserved : Reservation}
    (done : reserved.count = 0)
    : state.canStoreItemInTab rules tabId skipSlotId item merge reserved = reserved := by
  unfold BankState.canStoreItemInTab
  induction List.range guildBankMaxSlots with
  | nil => rfl
  | cons slotId rest ih =>
      have here : state.reserveSlot rules tabId skipSlotId item merge reserved slotId = reserved :=
        if_pos (.inl done)
      rw [List.foldl_cons, here, ih]

/-- A pass over the slots of a tab keeps the plan fit, seen with the skipped slot empty or not.
Witness: induction on the slots; the skipped one is not looked at.
-/
theorem Reserves.canStoreItemInTab {tabId skipSlotId : Nat} {swap merge : Bool}
    {reserved : Reservation} (stacked : item.Stacked rules)
    (purchased : tabId < state.live.guild.purchasedTabs)
    (reserves : Reserves rules (state.seen swap (.bank tabId skipSlotId) item) item reserved)
    : Reserves rules (state.seen swap (.bank tabId skipSlotId) item) item
        (state.canStoreItemInTab rules tabId skipSlotId item merge reserved) := by
  unfold BankState.canStoreItemInTab
  have inRange : ∀ slotId ∈ List.range guildBankMaxSlots, slotId < guildBankMaxSlots :=
    fun slotId member => List.mem_range.mp member
  generalize List.range guildBankMaxSlots = slots at inRange
  induction slots generalizing reserved with
  | nil => exact reserves
  | cons slotId rest ih =>
      rw [List.foldl_cons]
      refine ih ?_ (fun other member => inRange other (List.mem_cons_of_mem _ member))
      unfold BankState.reserveSlot
      by_cases skipped : reserved.count = 0 ∨ slotId = skipSlotId
      · rwa [if_pos skipped]
      · rw [if_neg skipped]
        rw [not_or] at skipped
        have view : state.itemDest tabId slotId item
            = state.seen swap (.bank tabId skipSlotId) item (.bank tabId slotId) := by
          have other : ¬ (swap = true ∧ Place.bank tabId slotId = .bank tabId skipSlotId) := by
            rintro ⟨_, same⟩
            exact skipped.2 (Place.bank.inj same).2
          unfold BankState.itemDest BankState.getItem BankState.seen
          rw [if_pos ⟨purchased, inRange slotId List.mem_cons_self⟩, if_neg other]
        simp only [view]
        split
        · exact reserves
        · cases done : Guilds.reserveSpace rules (.bank tabId slotId) item
              (state.seen swap (.bank tabId skipSlotId) item (.bank tabId slotId)) reserved with
          | none => exact reserves
          | some result =>
              exact reserves.reserveSpace stacked (Nat.pos_of_ne_zero skipped.1) done

/-- A plan of the bank fits what it has seen and places the whole item. -/
theorem canStoreInBank_reserves {tabId slotId : Nat} {swap : Bool} {vec : List (Place × Nat)}
    (stacked : item.Stacked rules) (named : (Place.bank tabId slotId).Named)
    (planned : state.canStoreInBank rules tabId slotId item swap = .ok vec)
    : Reserves rules (state.seen swap (.bank tabId slotId) item) item { vec, count := 0 } := by
  unfold BankState.canStoreInBank at planned
  split at planned
  · cases planned
  split at planned
  · cases planned
  rename_i purchased
  rw [not_le] at purchased
  have inSlot : ∀ result, (if slotId ≠ nullSlot then
      reserveSpace rules (.bank tabId slotId) item
        (if swap then none else state.itemDest tabId slotId item)
        { vec := [], count := item.count }
      else some { vec := [], count := item.count }) = some result →
      Reserves rules (state.seen swap (.bank tabId slotId) item) item result := by
    intro result done
    by_cases explicit : slotId ≠ nullSlot
    · rw [if_pos explicit] at done
      have slot : slotId < guildBankMaxSlots := named.resolve_right explicit
      have there : state.getItem tabId slotId
          = state.holdings.items.get? (.bank tabId slotId) := if_pos ⟨purchased, slot⟩
      have view : (if swap then none else state.itemDest tabId slotId item)
          = state.seen swap (.bank tabId slotId) item (.bank tabId slotId) := by
        cases swap <;> simp [BankState.itemDest, BankState.seen, there]
      rw [view] at done
      exact Reserves.start.reserveSpace stacked stacked.1 done
    · rw [if_neg explicit] at done
      obtain rfl := Option.some.inj done
      exact .start
  simp only at planned
  split at planned
  · cases planned
  · rename_i result done
    have reserves := inSlot result done
    have merged : Reserves rules (state.seen swap (.bank tabId slotId) item) item
        (if rules.getMaxStackCount item.entry > 1 then
          state.canStoreItemInTab rules tabId slotId item true result else result) := by
      split
      · exact reserves.canStoreItemInTab stacked purchased
      · exact reserves
    have filled := @Reserves.canStoreItemInTab _ _ _ tabId slotId swap false _ stacked purchased
      merged
    generalize state.canStoreItemInTab rules tabId slotId item false _ = final at planned filled
    by_cases full : final.count = 0
    · rw [if_pos full] at planned
      obtain rfl := Except.ok.inj planned
      refine ⟨filled.fits, ?_⟩
      have whole := filled.whole
      rwa [full] at whole
    · rw [if_neg full] at planned
      cases planned

/-- The plan of a swap is the named slot, which takes the whole stack. -/
theorem canStoreInBank_swap {tabId slotId : Nat} {vec : List (Place × Nat)}
    (stacked : item.Stacked rules) (explicit : slotId ≠ nullSlot)
    (planned : state.canStoreInBank rules tabId slotId item true = .ok vec)
    : vec = [(.bank tabId slotId, item.count)] := by
  have size : min (rules.getMaxStackCount item.entry) item.count = item.count :=
    Nat.min_eq_right stacked.2
  unfold BankState.canStoreInBank at planned
  split at planned
  · cases planned
  split at planned
  · cases planned
  simp only [if_true, reserveSpace, Option.map_some, List.map_nil,
    List.not_mem_nil, if_false, List.nil_append, size, Nat.sub_self] at planned
  have done (merge : Bool) := @canStoreItemInTab_of_done state rules item tabId slotId merge
    { vec := [(.bank tabId slotId, item.count)], count := 0 } rfl
  rw [done true, ite_self, done false] at planned
  exact (Except.ok.inj planned).symm

end Bank

-- One move

/-- What InitItem finds is at the place, and not at the slot that names none. -/
theorem get?_of_initItem {storage : PlayerStorage} {state : BankState} {place : Place} {item : Item}
    (found : state.initItem storage place = some item)
    : state.holdings.items.get? place = some item
      ∧ ∀ tabId slotId, place = .bank tabId slotId → slotId ≠ nullSlot := by
  cases place with
  | bank tabId slotId =>
      simp only [BankState.initItem, BankState.getItem, Option.ite_none_right_eq_some] at found
      refine ⟨found.2, fun tab slot same => ?_⟩
      obtain ⟨_, rfl⟩ := Place.bank.inj same
      have inside := found.1.2
      unfold guildBankMaxSlots at inside
      unfold nullSlot
      omega
  | player bag slot =>
      refine ⟨?_, fun tab slot same => by cases same⟩
      cases there : state.holdings.items.get? (.player bag slot) with
      | none => simp [BankState.initItem, there] at found
      | some stored =>
          simp only [BankState.initItem, there, Option.ite_none_left_eq_some] at found
          exact found.2.2

section Moves

variable {storage : PlayerStorage} {state : BankState} (correct : storage.Correct)
  (sound : state.holdings.Sound storage.rules)

include correct

/-- The plans of the two sides of a swap have no place in common. -/
theorem swap_plans_disjoint {src dest : Place} {item destItem : Item}
    {vec backVec : List (Place × Nat)} (stacked : item.Stacked storage.rules)
    (stacked' : destItem.Stacked storage.rules)
    (explicit : ∀ tabId slotId, src = .bank tabId slotId ∨ dest = .bank tabId slotId →
      slotId ≠ nullSlot)
    (bank : ∀ bag slot other otherSlot, src = .player bag slot → dest ≠ .player other otherSlot)
    (different : src ≠ dest) (planned : state.canStore storage item true dest = .ok vec)
    (planned' : state.canStore storage destItem true src = .ok backVec)
    : ∀ place ∈ vec.map Prod.fst, place ∉ backVec.map Prod.fst := by
  intro place member member'
  cases dest with
  | bank tabId slotId =>
      have single := canStoreInBank_swap stacked (explicit _ _ (.inr rfl)) planned
      obtain rfl : place = .bank tabId slotId := by simpa [single] using member
      cases src with
      | bank srcTab srcSlot =>
          have back := canStoreInBank_swap stacked' (explicit _ _ (.inl rfl)) planned'
          have same : Place.bank tabId slotId = .bank srcTab srcSlot := by simpa [back] using member'
          exact different same.symm
      | player bag slot =>
          obtain ⟨_, _, same⟩ := correct.own _ _ _ _ _ _ planned' _ member'
          cases same
  | player bag slot =>
      obtain ⟨_, _, rfl⟩ := correct.own _ _ _ _ _ _ planned _ member
      cases src with
      | bank srcTab srcSlot =>
          have back := canStoreInBank_swap stacked' (explicit _ _ (.inl rfl)) planned'
          simp [back] at member'
      | player other otherSlot => exact bank _ _ _ _ rfl rfl

include sound

/-- A plan of either side fits what it has seen and places the whole item. -/
theorem canStore_fits {place : Place} {item : Item} {swap : Bool} {vec : List (Place × Nat)}
    (stacked : item.Stacked storage.rules) (named : place.Named)
    (planned : state.canStore storage item swap place = .ok vec)
    : Fits storage.rules (state.seen swap place item) item vec ∧ placed vec = item.count := by
  cases place with
  | bank tabId slotId =>
      have reserves := canStoreInBank_reserves stacked named planned
      exact ⟨reserves.fits, reserves.whole⟩
  | player bag slot =>
      refine ⟨(correct.fits _ _ _ _ _ _ sound stacked planned).mono (fun step _ => ?_),
        correct.whole _ _ _ _ _ _ sound stacked planned⟩
      unfold BankState.seen
      by_cases swapped : swap = true ∧ step.1 = .player bag slot
      · exact .inl (if_pos swapped)
      · rw [if_neg swapped, if_neg swapped]
        cases found : state.holdings.items.get? step.1 with
        | none => exact .inl rfl
        | some stored =>
            rw [Option.filter_some]
            split
            · exact .inr (.inl rfl)
            · exact .inl rfl

/-- The whole object moves where the plan says. -/
theorem doItemsMove_whole {src dest : Place} {item : Item} (named : dest.Named)
    (found : state.holdings.items.get? src = some item) (player : Nat)
    : KeepsItems storage.rules state
        (state.doItemsMove storage player src dest item item none 0) := by
  unfold BankState.doItemsMove
  cases planned : state.canStore storage item (none : Option Item).isSome dest with
  | error _ => exact .of_refused sound
  | ok vec =>
      obtain ⟨fits, whole⟩ := canStore_fits correct sound (sound.stacked src item found) named
        planned
      refine ⟨move_conserves sound found whole (fits.mono (fun step _ => ?_)), by simp⟩
      rw [Holdings.get?_remove]
      by_cases here : step.1 = src
      · exact .inl (if_pos here)
      · right
        left
        rw [if_neg here]
        exact (BankState.seen_eq (fun swapped => absurd swapped.1 Bool.false_ne_true)
          (fun stored held same => here (sound.once step.1 src stored item held found same))).symm

/-- A part of a stack moves, as a clone, where the plan says. -/
theorem doItemsMove_split {src dest : Place} {item : Item} (named : dest.Named)
    (found : state.holdings.items.get? src = some item) {amount : Nat} (positive : 0 < amount)
    (part : amount < item.count) (player : Nat)
    : KeepsItems storage.rules state
        (BankState.doItemsMove
          { state with holdings :=
            { state.holdings with nextGuid := state.holdings.nextGuid + 1 } }
          storage player src dest item
          (storage.rules.clone item state.holdings.nextGuid amount) none amount) := by
  have counted := sound.count (Nat.le_succ _)
  obtain ⟨_, limit⟩ := sound.stacked src item found
  have size : min amount (storage.rules.getMaxStackCount item.entry) = amount :=
    Nat.min_eq_left (part.le.trans limit)
  have stacked : (storage.rules.clone item state.holdings.nextGuid amount).Stacked storage.rules := by
    unfold Item.Stacked ItemRules.clone
    simp only [size]
    exact ⟨positive, part.le.trans limit⟩
  unfold BankState.doItemsMove
  cases planned : BankState.canStore
      { state with holdings := { state.holdings with nextGuid := state.holdings.nextGuid + 1 } }
      storage (storage.rules.clone item state.holdings.nextGuid amount)
      (none : Option Item).isSome dest with
  | error _ =>
      exact ⟨⟨counted, fun _ => rfl, Nat.le_succ _, fun place item found => .inl
        ⟨place, item, found, rfl⟩, fun _ held => .inl held⟩, fun _ => ⟨rfl, rfl⟩⟩
  | ok vec =>
      obtain ⟨fits, whole⟩ := canStore_fits correct counted stacked named planned
      have conserves := split_conserves sound found positive part (whole.trans size)
        (fits.mono (fun step _ => ?_))
      · refine ⟨?_, by simp⟩
        simp only [BankState.storeItem, BankState.removeItem, ne_eq, positive.ne', not_false_eq_true,
          if_true]
        exact conserves
      · have view : BankState.seen
            { state with holdings := { state.holdings with nextGuid := state.holdings.nextGuid + 1 } }
            (none : Option Item).isSome dest
            (storage.rules.clone item state.holdings.nextGuid amount) step.1
            = state.holdings.items.get? step.1 :=
          BankState.seen_eq (fun swapped => absurd swapped.1 Bool.false_ne_true)
            (fun stored held => (sound.known step.1 stored held).ne)
        rw [view, Holdings.split, Holdings.get?_put]
        by_cases here : step.1 = src
        · right
          right
          rw [if_pos here, here]
          refine ⟨item, item.shrink amount, found, rfl, rfl, ?_⟩
          have small := storage.rules.getMaxStackCount_lt item.entry
          simp only [Item.shrink]
          rw [← Int.natCast_sub part.le, toUInt32_of_lt (by omega)]
          omega
        · exact .inr (.inl (if_neg here))

/-- Two objects change places. -/
theorem doItemsMove_swap {src dest : Place} {item destItem : Item} (namedSrc : src.Named)
    (namedDest : dest.Named) (different : src ≠ dest)
    (explicit : ∀ tabId slotId, src = .bank tabId slotId ∨ dest = .bank tabId slotId →
      slotId ≠ nullSlot)
    (bank : ∀ bag slot other otherSlot, src = .player bag slot → dest ≠ .player other otherSlot)
    (found : state.holdings.items.get? src = some item)
    (found' : state.holdings.items.get? dest = some destItem) (player : Nat)
    : KeepsItems storage.rules state
        (state.doItemsMove storage player src dest item item (some destItem) 0) := by
  have stacked := sound.stacked src item found
  have stacked' := sound.stacked dest destItem found'
  unfold BankState.doItemsMove
  cases planned : state.canStore storage item (some destItem).isSome dest with
  | error _ => exact .of_refused sound
  | ok vec =>
      cases planned' : state.canStore storage destItem true src with
      | error _ =>
          simp only [planned']
          exact .of_refused sound
      | ok backVec =>
          simp only [planned']
          obtain ⟨fits, whole⟩ := canStore_fits correct sound stacked namedDest planned
          obtain ⟨fits', whole'⟩ := canStore_fits correct sound stacked' namedSrc planned'
          have disjoint := swap_plans_disjoint correct stacked stacked' explicit bank different
            planned planned'
          have left (place : Place) : ((state.holdings.remove src).remove dest).items.get? place
              = if place = dest then none else if place = src then none
                else state.holdings.items.get? place := by
            rw [Holdings.get?_remove, Holdings.get?_remove]
          refine ⟨swap_conserves sound different found found' whole whole' disjoint
            (fits.mono (fun step _ => ?_)) (fits'.mono (fun step _ => ?_)), by simp⟩
          all_goals
            rw [left]
            by_cases isDest : step.1 = dest
            · exact .inl (if_pos isDest)
            rw [if_neg isDest]
            by_cases isSrc : step.1 = src
            · exact .inl (if_pos isSrc)
            rw [if_neg isSrc]
            right
            left
          · exact (BankState.seen_eq (fun swapped => isDest swapped.2) (fun stored held same =>
              isSrc (sound.once step.1 src stored item held found same))).symm
          · exact (BankState.seen_eq (fun swapped => isSrc swapped.2) (fun stored held same =>
              isDest (sound.once step.1 dest stored destItem held found' same))).symm

/-- A move between two named sides, one of them in the bank, keeps the items. -/
theorem moveItems_keepsItems {src dest : Place} (namedSrc : src.Named) (namedDest : dest.Named)
    (different : src ≠ dest)
    (bank : ∀ bag slot other otherSlot, src = .player bag slot → dest ≠ .player other otherSlot)
    (player splitedAmount : Nat)
    : KeepsItems storage.rules state
        (state.moveItems storage player src dest splitedAmount) := by
  have refused := KeepsItems.of_refused sound
  unfold BankState.moveItems
  cases found : state.initItem storage src with
  | none => exact refused
  | some item =>
      obtain ⟨there, explicit⟩ := get?_of_initItem found
      cases checked : checkItem item splitedAmount with
      | none =>
          simp only [checked]
          exact refused
      | some amount =>
          simp only [checked]
          split
          · exact refused
          split
          · exact refused
          split
          · rename_i split'
            have part : amount < item.count := by
              unfold checkItem at checked
              split at checked
              · cases checked
              split at checked
              · exact absurd (Option.some.inj checked).symm split'
              · obtain rfl := Option.some.inj checked
                omega
            exact doItemsMove_split correct sound namedDest there (Nat.pos_of_ne_zero split') part
              player
          · split
            · exact doItemsMove_whole correct sound namedDest there player
            · cases found' : state.initItem storage dest with
              | none => exact refused
              | some destItem =>
                  obtain ⟨there', explicit'⟩ := get?_of_initItem found'
                  simp only
                  split
                  · exact refused
                  split
                  · exact refused
                  · refine doItemsMove_swap correct sound namedSrc namedDest different ?_ bank there
                      there' player
                    rintro tabId slotId (same | same)
                    · exact explicit tabId slotId same
                    · exact explicit' tabId slotId same

/-- A move within the bank keeps the items. -/
theorem swapItems_keepsItems (player tabId slotId destTabId destSlotId splitedAmount : Nat)
    : KeepsItems storage.rules state
        (state.swapItems storage player tabId slotId destTabId destSlotId splitedAmount) := by
  unfold BankState.swapItems
  split
  · exact .of_refused sound
  · rename_i inside
    simp only [ge_iff_le, not_or, not_le] at inside
    split
    · exact .of_refused sound
    · rename_i different
      have namedSrc : (Place.bank tabId slotId).Named := .inl inside.2.1
      have namedDest : (Place.bank destTabId destSlotId).Named := .inl inside.2.2.2
      exact moveItems_keepsItems correct sound namedSrc namedDest
        (fun same => different (Place.bank.inj same)) (fun _ _ _ _ same => by cases same) _ _

/-- A move between the bank and a bag keeps the items. -/
theorem swapItemsWithInventory_keepsItems (player : Nat) (toChar : Bool)
    (tabId slotId playerBag playerSlotId splitedAmount : Nat)
    : KeepsItems storage.rules state
        (state.swapItemsWithInventory storage player toChar tabId slotId playerBag playerSlotId
          splitedAmount) := by
  unfold BankState.swapItemsWithInventory
  split
  · exact .of_refused sound
  · rename_i inside
    have named : (Place.bank tabId slotId).Named := by
      by_contra outside
      obtain ⟨low, some'⟩ := not_or.mp outside
      exact inside (.inl ⟨Nat.le_of_not_lt low, some'⟩)
    have bag : (Place.player playerBag playerSlotId).Named := trivial
    split
    · exact moveItems_keepsItems correct sound named bag (fun same => by cases same)
        (fun _ _ _ _ same => by cases same) _ _
    · exact moveItems_keepsItems correct sound bag named (fun same => by cases same)
        (fun _ _ _ _ _ same => by cases same) _ _

/-- Item moves of the guild bank: every request keeps the units of every entry over bank and
bags, keeps every stack within its size, loses no object but into another stack of its entry and
doubles none, and changes nothing when it is refused.
-/
theorem bank_item_moves_conserve (player : Nat) (banker : Bool) (packet : GuildBankSwapItems)
    : KeepsItems storage.rules state
        (handleGuildBankSwapItems state storage player banker packet) := by
  unfold handleGuildBankSwapItems
  split
  · exact .of_refused sound
  split
  · exact swapItems_keepsItems correct sound _ _ _ _ _ _
  · dsimp only
    generalize (if packet.autoStore then nullBag else packet.containerSlot) = playerBag
    generalize (if packet.autoStore then nullSlot else packet.containerItemSlot) = playerSlotId
    split
    · exact .of_refused sound
    · exact swapItemsWithInventory_keepsItems correct sound _ _ _ _ _ _ _

end Moves

-- A swap between a bank slot and a bag

/-- Bags that take an item at a named slot which is empty or swapped, and refuse all else. -/
def plainBags : PlayerStorage where
  stackable _ := 20
  binds _ _ _ := false
  isNotEmptyBag _ _ := false
  canBeTraded _ item := !item.soulBound
  canStoreItem holdings bag slot item swap :=
    if swap ∨ holdings.items.get? (.player bag slot) = none then
      .ok [(.player bag slot, item.count)]
    else .error (.ofPlayer 19)

theorem plainBags_correct : plainBags.Correct where
  fits := by
    intro holdings bag slot item swap vec _ stacked planned
    simp only [plainBags] at planned
    split at planned
    · rename_i free
      obtain rfl := Except.ok.inj planned
      refine ⟨by simp, fun step member => ?_⟩
      obtain rfl := List.mem_singleton.mp member
      show Takes plainBags.rules item (if swap = true ∧ Place.player bag slot = .player bag slot
        then none else holdings.items.get? (.player bag slot)) item.count
      rcases free with swapped | free
      · rw [if_pos ⟨swapped, rfl⟩]
        exact stacked
      · rw [free, ite_self]
        exact stacked
    · cases planned
  whole := by
    intro holdings bag slot item swap vec _ _ planned
    simp only [plainBags] at planned
    split at planned
    · obtain rfl := Except.ok.inj planned
      simp [placed]
    · cases planned
  own := by
    intro holdings bag slot item swap vec planned place member
    simp only [plainBags] at planned
    split at planned
    · obtain rfl := Except.ok.inj planned
      exact ⟨bag, slot, by simpa using member⟩
    · cases planned

/-- Twelve of one entry in the bank, five of another in the backpack. -/
def filledState : BankState where
  live := {
    guild := {
      name := "Keepers", leaderGuid := 1, bankMoney := 0, purchasedTabs := 1
      ranks := []
      members := Table.emplace ∅ 1 { name := "Ada", level := 80, playerClass := 1, rankId := 0 } }
    db := {
      guild := none, guildBankTabs := 1, guildRank := [], guildMember := ∅
      guildBankRight := ∅, guildMemberWithdraw := ∅ } }
  holdings := Holdings.put
    (Holdings.put { items := ∅, nextGuid := 3 } (.bank 0 7) { guid := 1, entry := 100, count := 12 })
    (.player 255 23) { guid := 2, entry := 200, count := 5 }

theorem filledState_sound : filledState.holdings.Sound plainBags.rules := by
  have empty : Holdings.Sound plainBags.rules { items := ∅, nextGuid := 3 } := by
    constructor <;> simp
  have first := @Holdings.Sound.put _ _ _ _ empty (.bank 0 7) { guid := 1, entry := 100, count := 12 }
    (by decide) (by decide) (by simp)
  refine first.put (by decide) (by decide) ?_
  intro other item found same
  rw [Holdings.get?_put] at found
  split at found
  · obtain rfl := Option.some.inj found
    cases same
  · simp at found

def swapWithBackpack : GuildBankSwapItems where
  bankOnly := false
  autoStore := false
  bankTab := 0
  bankSlot := 7
  containerSlot := 255
  containerItemSlot := 23
  toSlot := 1

theorem bank_item_moves_conserve_applied
    : (handleGuildBankSwapItems filledState plainBags 1 true swapWithBackpack).1 = true
      ∧ KeepsItems plainBags.rules filledState
          (handleGuildBankSwapItems filledState plainBags 1 true swapWithBackpack) :=
  ⟨by decide +kernel, bank_item_moves_conserve plainBags_correct filledState_sound 1 true _⟩

end WarheadCore.Guilds
