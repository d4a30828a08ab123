import WarheadCore.Guilds.Handlers
import WarheadCore.Items.Moves

/-! Moves of items within the guild bank and between the bank and a player's bags.
The player's own storage is a parameter: whether he may give an item away, where an item binds,
and the plan that his CanStoreItem makes.
-/

namespace WarheadCore.Guilds

open Foundation WarheadCore.Items

def guildBankMaxSlots : Nat := 98
def guildBankRightDepositItem : Nat := 0x03
def nullBag : Nat := 0
def nullSlot : Nat := 255
def inventorySlotBag0 : Nat := 255

/-- Where an item can be, and one side of a move: a slot of a bank tab or of a player's bag. -/
inductive Place where
  | bank (tabId slotId : Nat)
  | player (bag slot : Nat)
deriving DecidableEq

/-- The answers of the bank's own CanStore, and those of the player. -/
inductive InventoryResult where
  | cantDropSoulbound | itemDoesntGoIntoBag | itemCantStack | bankFull | ofPlayer (code : Nat)
deriving DecidableEq

structure PlayerStorage where
  stackable : Nat → Int
  binds : Nat → Nat → Nat → Bool
  isNotEmptyBag : Holdings Place → Item → Bool
  canBeTraded : Holdings Place → Item → Bool
  canStoreItem : Holdings Place → Nat → Nat → Item → Bool →
    Except InventoryResult (List (Place × Nat))

def PlayerStorage.rules (storage : PlayerStorage) : ItemRules Place where
  stackable := storage.stackable
  binds entry
    | .bank _ _ => false
    | .player bag slot => storage.binds entry bag slot

/-- The guild, and the items of its bank and of the player who moves them. -/
structure BankState where
  live : LiveGuild
  holdings : Holdings Place

structure GuildBankSwapItems where
  bankOnly : Bool
  autoStore : Bool
  bankTab : Nat
  bankSlot : Nat
  bankTab1 : Nat := 0
  bankSlot1 : Nat := 0
  bankItemCount : Int := 0
  containerSlot : Nat := 0
  containerItemSlot : Nat := 0
  toSlot : Nat := 0
  stackCount : Int := 0

-- Rights

def Guild.getRankBankTabRights (guild : Guild) (rankId tabId : Nat) : Nat :=
  match guild.getRankInfo rankId with
  | some info => ((info.bankTabRightsAndSlots[tabId]?).getD {}).rights
  | none => 0

def tabCell (tabId : Nat) : Fin (guildBankMaxTabs + 1) := Fin.ofNat _ tabId

def Guild.getMemberRemainingSlots (guild : Guild) (member : Member) (tabId : Nat) : Int :=
  if member.rankId = grGuildmaster then toInt32 guildWithdrawSlotUnlimited
  else if guild.getRankBankTabRights member.rankId tabId &&& guildBankRightViewTab ≠ 0 then
    let remaining := toInt32 (guild.getRankBankTabSlotsPerDay member.rankId tabId
      - member.getBankWithdrawValue (tabCell tabId))
    if remaining > 0 then remaining else 0
  else 0

def Guild.memberHasTabRights (guild : Guild) (guid tabId rights : Nat) : Bool :=
  match guild.getMember guid with
  | none => false
  | some member =>
      member.rankId == grGuildmaster || guild.leaderGuid == guid
        || guild.getRankBankTabRights member.rankId tabId &&& rights == rights

def LiveGuild.updateMemberWithdrawSlots (live : LiveGuild) (guid tabId : Nat) : LiveGuild :=
  match live.guild.getMember guid with
  | none => live
  | some member =>
      if member.rankId ≠ grGuildmaster ∧ member.getBankWithdrawValue (tabCell tabId)
          < live.guild.getRankBankTabSlotsPerDay member.rankId tabId then
        live.updateBankWithdrawValue guid member (tabCell tabId) 1
      else live

def Place.inTab (tabId : Nat) : Place → Bool
  | .bank tab _ => tab == tabId
  | .player _ _ => false

def Place.hasStoreRights (place other : Place) (guild : Guild) (player : Nat) : Bool :=
  match place with
  | .player _ _ => true
  | .bank tabId _ =>
      other.inTab tabId || guild.memberHasTabRights player tabId guildBankRightDepositItem

def Place.hasWithdrawRights (place other : Place) (guild : Guild) (player : Nat) : Bool :=
  match place with
  | .player _ _ => true
  | .bank tabId _ =>
      other.inTab tabId || match guild.getMember player with
        | some member => guild.getMemberRemainingSlots member tabId != 0
        | none => false

-- Planning

def BankState.getItem (state : BankState) (tabId slotId : Nat) : Option Item :=
  if tabId < state.live.guild.purchasedTabs ∧ slotId < guildBankMaxSlots then
    state.holdings.items.get? (.bank tabId slotId)
  else none

def BankState.initItem (state : BankState) (storage : PlayerStorage) : Place → Option Item
  | .bank tabId slotId => state.getItem tabId slotId
  | .player bag slot =>
      match state.holdings.items.get? (.player bag slot) with
      | none => none
      | some item =>
          if storage.isNotEmptyBag state.holdings item then none
          else if !storage.canBeTraded state.holdings item then none
          else some item

def checkItem (item : Item) (splitedAmount : Nat) : Option Nat :=
  if splitedAmount > item.count then none
  else if splitedAmount = item.count then some 0
  else some splitedAmount

structure Reservation where
  vec : List (Place × Nat)
  count : Nat

def reserveSpace (rules : ItemRules Place) (place : Place) (item : Item) (itemDest : Option Item)
    (reserved : Reservation)
    : Option Reservation :=
  let space := match itemDest with
    | none => some (rules.getMaxStackCount item.entry)
    | some stored =>
        if stored.entry ≠ item.entry ∨ stored.count ≥ rules.getMaxStackCount item.entry then none
        else some (rules.getMaxStackCount item.entry - stored.count)
  space.map (fun space : Nat =>
    let required := min space reserved.count
    if place ∈ reserved.vec.map Prod.fst then reserved
    else { vec := reserved.vec ++ [(place, required)], count := reserved.count - required })

/-- What a plan sees at a slot of the bank: the planned item itself is not there. -/
def BankState.itemDest (state : BankState) (tabId slotId : Nat) (item : Item) : Option Item :=
  (state.getItem tabId slotId).filter (fun stored => stored.guid != item.guid)

def BankState.reserveSlot (state : BankState) (rules : ItemRules Place) (tabId skipSlotId : Nat)
    (item : Item) (merge : Bool) (reserved : Reservation) (slotId : Nat)
    : Reservation :=
  if reserved.count = 0 ∨ slotId = skipSlotId then reserved
  else
    let itemDest := state.itemDest tabId slotId item
    if itemDest.isSome ≠ merge then reserved
    else (reserveSpace rules (.bank tabId slotId) item itemDest reserved).getD reserved

def BankState.canStoreItemInTab (state : BankState) (rules : ItemRules Place)
    (tabId skipSlotId : Nat) (item : Item) (merge : Bool) (reserved : Reservation)
    : Reservation :=
  (List.range guildBankMaxSlots).foldl (state.reserveSlot rules tabId skipSlotId item merge)
    reserved

/-- CanStore of the bank: the named slot first, then stacks to fill up, then free slots. A pass
with no units left reserves nothing, as when the source returns before it.
-/
def BankState.canStoreInBank (state : BankState) (rules : ItemRules Place) (tabId slotId : Nat)
    (item : Item) (swap : Bool)
    : Except InventoryResult (List (Place × Nat)) :=
  if item.soulBound then .error .cantDropSoulbound
  else if tabId ≥ state.live.guild.purchasedTabs then .error .itemDoesntGoIntoBag
  else
    let start : Reservation := { vec := [], count := item.count }
    let named :=
      if slotId ≠ nullSlot then
        let itemDest := if swap then none else state.itemDest tabId slotId item
        reserveSpace rules (.bank tabId slotId) item itemDest start
      else some start
    match named with
    | none => .error .itemCantStack
    | some named =>
        let merged :=
          if rules.getMaxStackCount item.entry > 1 then
            state.canStoreItemInTab rules tabId slotId item true named
          else named
        let filled := state.canStoreItemInTab rules tabId slotId item false merged
        if filled.count = 0 then .ok filled.vec else .error .bankFull

def BankState.canStore (state : BankState) (storage : PlayerStorage) (item : Item) (swap : Bool)
    : Place → Except InventoryResult (List (Place × Nat))
  | .bank tabId slotId => state.canStoreInBank storage.rules tabId slotId item swap
  | .player bag slot => storage.canStoreItem state.holdings bag slot item swap

-- Moving

/-- The part of RemoveItem after the item has left: a removal from the bank counts, unless the
other side is in the same tab.
-/
def LiveGuild.countRemoval (live : LiveGuild) (player : Nat) (place other : Place) : LiveGuild :=
  match place with
  | .player _ _ => live
  | .bank tabId _ =>
      if other.inTab tabId then live else live.updateMemberWithdrawSlots player tabId

/-- RemoveItem of either side: a split shrinks the stack, otherwise its place becomes empty. -/
def BankState.removeItem (state : BankState) (player : Nat) (place other : Place) (item : Item)
    (splitedAmount : Nat)
    : BankState where
  live := state.live.countRemoval player place other
  holdings :=
    if splitedAmount ≠ 0 then state.holdings.put place (item.shrink splitedAmount)
    else state.holdings.remove place

def BankState.storeItem (state : BankState) (rules : ItemRules Place) (item : Item)
    (vec : List (Place × Nat))
    : BankState :=
  { state with holdings := Items.storeItem rules item vec state.holdings }

/-- _DoItemsMove of an item, or of the clone split off from it, against the item at the
destination if that was initialized: a swap.
-/
def BankState.doItemsMove (state : BankState) (storage : PlayerStorage) (player : Nat)
    (src dest : Place) (item moved : Item) (destItem : Option Item) (splitedAmount : Nat)
    : Bool × BankState :=
  match state.canStore storage moved destItem.isSome dest with
  | .error _ => (false, state)
  | .ok vec =>
      match destItem with
      | none => (true,
          (state.removeItem player src dest item splitedAmount).storeItem storage.rules moved vec)
      | some destItem =>
          match state.canStore storage destItem true src with
          | .error _ => (false, state)
          | .ok backVec => (true,
              (((state.removeItem player src dest item splitedAmount).removeItem player dest src
                destItem 0).storeItem storage.rules moved vec).storeItem storage.rules destItem
                backVec)

def BankState.moveItems (state : BankState) (storage : PlayerStorage) (player : Nat)
    (src dest : Place) (splitedAmount : Nat)
    : Bool × BankState :=
  match state.initItem storage src with
  | none => (false, state)
  | some item =>
      match checkItem item splitedAmount with
      | none => (false, state)
      | some splitedAmount =>
          if !dest.hasStoreRights src state.live.guild player then (false, state)
          else if !src.hasWithdrawRights dest state.live.guild player then (false, state)
          else if splitedAmount ≠ 0 then
            let cloned := storage.rules.clone item state.holdings.nextGuid splitedAmount
            let counted : BankState :=
              { state with holdings :=
                { state.holdings with nextGuid := state.holdings.nextGuid + 1 } }
            counted.doItemsMove storage player src dest item cloned none splitedAmount
          else
            let merged := state.doItemsMove storage player src dest item item none 0
            if merged.1 then merged
            else match state.initItem storage dest with
              | none => (false, state)
              | some destItem =>
                  if !src.hasStoreRights dest state.live.guild player then (false, state)
                  else if !dest.hasWithdrawRights src state.live.guild player then (false, state)
                  else state.doItemsMove storage player src dest item item (some destItem) 0

def BankState.swapItems (state : BankState) (storage : PlayerStorage) (player : Nat)
    (tabId slotId destTabId destSlotId splitedAmount : Nat)
    : Bool × BankState :=
  if tabId ≥ state.live.guild.purchasedTabs ∨ slotId ≥ guildBankMaxSlots
      ∨ destTabId ≥ state.live.guild.purchasedTabs ∨ destSlotId ≥ guildBankMaxSlots then
    (false, state)
  else if tabId = destTabId ∧ slotId = destSlotId then (false, state)
  else
    state.moveItems storage player (.bank tabId slotId) (.bank destTabId destSlotId) splitedAmount

def BankState.swapItemsWithInventory (state : BankState) (storage : PlayerStorage) (player : Nat)
    (toChar : Bool) (tabId slotId playerBag playerSlotId splitedAmount : Nat)
    : Bool × BankState :=
  if (slotId ≥ guildBankMaxSlots ∧ slotId ≠ nullSlot)
      ∨ tabId ≥ state.live.guild.purchasedTabs then
    (false, state)
  else if toChar then
    state.moveItems storage player (.bank tabId slotId) (.player playerBag playerSlotId)
      splitedAmount
  else
    state.moveItems storage player (.player playerBag playerSlotId) (.bank tabId slotId)
      splitedAmount

/-- Player::IsInventoryPos: the backpack, a bag, the keyring and the currency slots. -/
def isInventoryPos (bag slot : Nat) : Bool :=
  (bag == inventorySlotBag0 && slot == nullSlot)
    || (bag == inventorySlotBag0 && 23 ≤ slot && slot < 39)
    || (19 ≤ bag && bag < 23)
    || (bag == inventorySlotBag0 && 86 ≤ slot && slot < 150)

/-- HandleGuildBankSwapItems, with whether the player can use the banker. -/
def handleGuildBankSwapItems (state : BankState) (storage : PlayerStorage) (player : Nat)
    (banker : Bool) (packet : GuildBankSwapItems)
    : Bool × BankState :=
  if !banker then (false, state)
  else if packet.bankOnly then
    state.swapItems storage player packet.bankTab1 packet.bankSlot1 packet.bankTab packet.bankSlot
      (toUInt32 packet.bankItemCount)
  else
    let playerBag := if packet.autoStore then nullBag else packet.containerSlot
    let playerSlotId := if packet.autoStore then nullSlot else packet.containerItemSlot
    let toChar := if packet.autoStore then 1 else packet.toSlot
    let splitedAmount := if packet.autoStore then 0 else toUInt32 packet.stackCount
    if !isInventoryPos playerBag playerSlotId
        && !(playerBag == nullBag && playerSlotId == nullSlot) then
      (false, state)
    else
      state.swapItemsWithInventory storage player (toChar != 0) packet.bankTab packet.bankSlot
        playerBag playerSlotId splitedAmount

end WarheadCore.Guilds
