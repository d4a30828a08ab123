import Mathlib.Data.Fintype.Pi
import WarheadCore.Player.Money
import WarheadCore.Trade.InventoryFrame

/-! The trade window of two players: its messages, and the requests that change an inventory while
it is open. What a trade moves when it is executed is left out: the window is closed then.
-/

namespace WarheadCore.Trade

open Foundation

def TRADE_SLOT_COUNT : Nat := 7

def TRADE_SLOT_TRADED_COUNT : Nat := 6

def TRADE_SLOT_NONTRADED : Nat := 6

abbrev TradeSlot := Fin TRADE_SLOT_COUNT

/-- The slot of an item that is only shown, for a spell to be cast on it. -/
def nontradedSlot : TradeSlot := ⟨TRADE_SLOT_NONTRADED, by decide⟩

/-- The two players of a trade. -/
inductive Side where
  | player
  | trader
deriving DecidableEq

def Side.partner : Side → Side
  | .player => .trader
  | .trader => .player

structure TradeData where
  accepted : Bool := false
  money : Nat := 0
  spell : Nat := 0
  spellCastItem : Option Guid := none
  items : TradeSlot → Option Guid := fun _ => none

def TradeData.hasItem (trade : TradeData) (guid : Guid) : Bool :=
  (List.finRange TRADE_SLOT_COUNT).any (fun slot => trade.items slot = some guid)

structure Party where
  money : Nat
  inventory : Inventory
  trade : TradeData

namespace Party

def getItem (party : Party) (slot : TradeSlot) : Option (Guid × Item) :=
  (party.trade.items slot).bind (fun guid =>
    (party.inventory.getItemByGuid guid).map (fun item => (guid, item)))

def getSpellCastItem (party : Party) : Option Item :=
  party.trade.spellCastItem.bind party.inventory.getItemByGuid

def tradedSlots : List TradeSlot :=
  (List.finRange TRADE_SLOT_COUNT).take TRADE_SLOT_TRADED_COUNT

/-- What a player offers: the stacks in the traded slots with their counts, and the gold. -/
def offer (party : Party) : List (Option (Guid × Nat)) × Nat :=
  (tradedSlots.map (fun slot => (party.getItem slot).map (fun found => (found.1, found.2.count))),
    party.trade.money)

def Offers (party : Party) (guid : Guid) : Prop :=
  ∃ slot ∈ tradedSlots, party.trade.items slot = some guid

end Party

/-- What the functions that the accept handler asks tell of the items, the spells and the room. -/
structure AcceptChecks where
  canBeTraded : Guid → Bool := fun _ => true
  isBindedNotWith : Guid → Bool := fun _ => false
  /-- GetSpellInfo and CheckCast. -/
  canCast : Side → Bool := fun _ => true
  canStoreItems : Side → Bool := fun _ => true

/-- A message of a player, or a request of his that changes his inventory. -/
inductive Message where
  | setTradeItem (tradeSlot : Nat) (pos : Pos) (checks : InventoryChecks) (canBeTraded : Guid → Bool)
  | clearTradeItem (tradeSlot : Nat)
  | setTradeGold (gold : Nat)
  | castSpell (spell : Nat) (castItem : Option Guid)
  | acceptTrade (checks : AcceptChecks)
  | unacceptTrade
  | inventory (request : InventoryRequest) (checks : InventoryChecks)

/-- The window while the trade goes on. `executed` tells whether the trade was, and `current`
whether a player's accept stands that came after the last change of what his partner offers.
-/
structure Window where
  party : Side → Party
  isOpen : Bool := true
  executed : Bool := false
  current : Side → Bool := fun _ => false

namespace Window

def change (window : Window) (side : Side) (f : Party → Party) : Window :=
  { window with
    party := fun other => if other = side then f (window.party other) else window.party other }

def changeTrade (window : Window) (side : Side) (f : TradeData → TradeData) : Window :=
  window.change side (fun party => { party with trade := f party.trade })

def setAccepted (window : Window) (side : Side) (state : Bool) : Window :=
  window.changeTrade side (fun trade => { trade with accepted := state })

def takeBack (window : Window) (side : Side) : Window :=
  (window.setAccepted side false).setAccepted side.partner false

def setSpell (window : Window) (side : Side) (spell : Nat) (castItem : Option Guid) : Window :=
  let trade := (window.party side).trade
  if trade.spell = spell ∧ trade.spellCastItem = castItem then window
  else
    (window.changeTrade side (fun trade => { trade with spell, spellCastItem := castItem })).takeBack
      side

def setItem (window : Window) (side : Side) (slot : TradeSlot) (item : Option Guid) : Window :=
  if (window.party side).trade.items slot = item then window
  else
    let changed := (window.changeTrade side (fun trade =>
      { trade with items := Function.update trade.items slot item })).takeBack side
    let partner :=
      if slot = nontradedSlot then changed.setSpell side.partner 0 none else changed
    partner.setSpell side 0 none

def setMoney (window : Window) (side : Side) (money : Nat) : Window :=
  let party := window.party side
  if party.trade.money = money then window
  else if ¬ Player.hasEnoughMoney party.money money then window
  else (window.changeTrade side (fun trade => { trade with money })).takeBack side

def handleSetTradeItem (window : Window) (side : Side) (tradeSlot : Nat) (pos : Pos)
    (checks : InventoryChecks) (canBeTraded : Guid → Bool) : Window :=
  let party := window.party side
  if valid : tradeSlot < TRADE_SLOT_COUNT then
    match party.inventory.getItemByPos checks pos with
    | none => window
    | some ⟨guid, _⟩ =>
        if tradeSlot ≠ TRADE_SLOT_NONTRADED ∧ ¬ canBeTraded guid then window
        else if party.trade.hasItem guid then window
        else window.setItem side ⟨tradeSlot, valid⟩ (some guid)
  else window

def handleClearTradeItem (window : Window) (side : Side) (tradeSlot : Nat) : Window :=
  if valid : tradeSlot < TRADE_SLOT_COUNT then window.setItem side ⟨tradeSlot, valid⟩ none
  else window

/-- Every offered item may still be traded, and the player's own ones with his partner. -/
def itemsMayBeTraded (my his : Party) (checks : AcceptChecks) : Bool :=
  Party.tradedSlots.all (fun slot =>
    (my.getItem slot).all (fun item =>
      checks.canBeTraded item.1 && !checks.isBindedNotWith item.1)
    && (his.getItem slot).all (fun item => checks.canBeTraded item.1))

def spellFails (caster target : Party) (canCast : Bool) : Bool :=
  caster.trade.spell ≠ 0
    ∧ ((target.getItem nontradedSlot).isNone
      ∨ (caster.trade.spellCastItem.isSome ∧ caster.getSpellCastItem.isNone) ∨ ¬ canCast)

def handleAcceptTrade (window : Window) (side : Side) (checks : AcceptChecks) : Window :=
  let partner := side.partner
  -- set before the checks, to be undone where one fails
  let window := window.setAccepted side true
  let my := window.party side
  let his := window.party partner
  if ¬ Player.hasEnoughMoney my.money my.trade.money then window.setAccepted side false
  else if ¬ Player.hasEnoughMoney his.money his.trade.money then window.setAccepted partner false
  else if my.money ≥ toUInt32 ((Player.maxMoneyAmount : Int) - his.trade.money) then
    window.setAccepted side false
  else if his.money ≥ toUInt32 ((Player.maxMoneyAmount : Int) - my.trade.money) then
    window.setAccepted partner false
  else if ¬ itemsMayBeTraded my his checks then window
  else if his.trade.accepted then
    if spellFails my his (checks.canCast side) then window.setSpell side 0 none
    else if spellFails his my (checks.canCast partner) then window.setSpell partner 0 none
    else if ¬ checks.canStoreItems side then window.takeBack side
    else if ¬ checks.canStoreItems partner then window.takeBack side
    else { window with isOpen := false, executed := true }
  else window

def handleInventory (window : Window) (side : Side) (request : InventoryRequest)
    (checks : InventoryChecks) : Window :=
  window.change side (fun party =>
    { party with
      inventory := party.inventory.handle checks party.trade.hasItem request })

def handle (window : Window) (side : Side) : Message → Window
  | .setTradeItem tradeSlot pos checks canBeTraded =>
      window.handleSetTradeItem side tradeSlot pos checks canBeTraded
  | .clearTradeItem tradeSlot => window.handleClearTradeItem side tradeSlot
  | .setTradeGold gold => window.setMoney side gold
  | .castSpell spell castItem => window.setSpell side spell castItem
  | .acceptTrade checks => window.handleAcceptTrade side checks
  | .unacceptTrade => window.setAccepted side false
  | .inventory request checks => window.handleInventory side request checks

def offer (window : Window) (side : Side) : List (Option (Guid × Nat)) × Nat :=
  (window.party side).offer

end Window

/-- An accept stands from its message on, until it is withdrawn or the partner's offer changes. -/
def Message.standing (message : Message) (before : Bool) : Bool :=
  match message with
  | .acceptTrade _ => true
  | .unacceptTrade => false
  | _ => before

namespace Window

/-- A message of one side while the window is open; the trade's end closes it. -/
def step (window : Window) (call : Side × Message) : Window :=
  if window.isOpen then
    let next := window.handle call.1 call.2
    { next with
      current := fun side =>
        (if side = call.1 then call.2.standing (window.current side) else window.current side)
          && decide (next.offer side.partner = window.offer side.partner) }
  else window

def Executes (window : Window) (call : Side × Message) : Prop :=
  window.executed = false ∧ (window.step call).executed = true

/-- Two trade windows that were just opened, over inventories whose guids were all given out. -/
structure Opened (window : Window) : Prop where
  trade : ∀ side, (window.party side).trade = {}
  numbered : ∀ side, (window.party side).inventory.Numbered
  isOpen : window.isOpen = true
  executed : window.executed = false

/-- A request that changes an inventory spares the offered stacks while the partner's accept
stands.
-/
def Spared (window : Window) (call : Side × Message) : Prop :=
  match call.2 with
  | .inventory request checks =>
      let party := window.party call.1
      window.isOpen → (window.party call.1.partner).trade.accepted
        → Inventory.Spares party.Offers checks party.trade.hasItem party.inventory request
  | _ => True

end Window

end WarheadCore.Trade
