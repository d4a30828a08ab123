import WarheadCore.Auction.State

/-! The requests and the timer that reach the auction houses.
Each handler returns the world it leaves and the command results it sends, in order; a request
the source drops without a word sends none.
-/

namespace WarheadCore.Auction

open Foundation WarheadCore.Player

-- Answers

inductive AuctionAction where
  | sellItem | cancel | placeBid
deriving DecidableEq

inductive AuctionError where
  | ok | inventory | databaseError | notEnoughtMoney | itemNotFound | higherBid | bidIncrement
  | bidOwn
deriving DecidableEq

inductive InventoryResult where
  | ok | cannotTradeThat | canOnlyDoWithEmptyBags
deriving DecidableEq

structure CommandResult where
  auctionID : Nat := 0
  action : AuctionAction
  errorCode : AuctionError
  inventoryError : InventoryResult := .ok
deriving DecidableEq

structure Handled where
  world : AuctionWorld
  replies : List CommandResult

def AuctionWorld.silent (world : AuctionWorld) : Handled := { world := world, replies := [] }

def AuctionWorld.answer (world : AuctionWorld) (action : AuctionAction) (errorCode : AuctionError)
    : Handled :=
  { world := world, replies := [{ action := action, errorCode := errorCode }] }

-- Selling

def maxAuctionItems : Nat := 160

/-- The fields of CMSG_AUCTION_SELL_ITEM; `items` holds the guids and counts. -/
structure AuctionSellItem where
  items : List (Nat × Nat)
  expireTime : Nat
  bid : Nat
  buyout : Nat
deriving DecidableEq

/-- One offered stack: its guid, the item under it and the count taken from it. -/
structure OfferedItem where
  guid : Nat
  item : Item
  count : Nat
deriving DecidableEq

/-- How SellItemTask::Execute refuses an offer before the deposit. -/
inductive SellRefusal where
  | databaseError | itemNotFound | cannotTradeThat | canOnlyDoWithEmptyBags
deriving DecidableEq

def SellRefusal.reply : SellRefusal → CommandResult
  | .databaseError => { action := .sellItem, errorCode := .databaseError }
  | .itemNotFound => { action := .sellItem, errorCode := .itemNotFound }
  | .cannotTradeThat =>
      { action := .sellItem, errorCode := .inventory, inventoryError := .cannotTradeThat }
  | .canOnlyDoWithEmptyBags =>
      { action := .sellItem, errorCode := .inventory, inventoryError := .canOnlyDoWithEmptyBags }

def AuctionWorld.getItemByGuid (world : AuctionWorld) (player guid : Nat) : Option Item :=
  match world.carried.get? guid with
  | none => none
  | some stored => if stored.owner = player then some stored.item else none

/-- The loop that looks up and checks the offered items; `itemEntry` is 0 before the first. -/
def AuctionWorld.collectItems (world : AuctionWorld) (player : Nat)
    : Nat → List (Nat × Nat) → Except SellRefusal (List OfferedItem)
  | _, [] => .ok []
  | itemEntry, (guid, count) :: rest =>
      match world.getItemByGuid player guid with
      | none => .error .itemNotFound
      | some item =>
          let entry := if itemEntry = 0 then item.entry else itemEntry
          if (world.getAuctionItem guid).isSome then .error .itemNotFound
          else if !item.canBeTraded then .error .cannotTradeThat
          else if item.isNotEmptyBag then .error .canOnlyDoWithEmptyBags
          else if item.conjured || item.duration ≠ 0 then .error .cannotTradeThat
          else if item.count < count || entry ≠ item.entry then .error .itemNotFound
          else match world.collectItems player entry rest with
            | .error error => .error error
            | .ok offered => .ok ({ guid := guid, item := item, count := count } :: offered)

structure Offer where
  house : AuctionHouses
  houseEntry : AuctionHouseEntry
  first : OfferedItem
  others : List OfferedItem
deriving DecidableEq

def Offer.finalCount (offer : Offer) : Nat :=
  offer.first.count + (offer.others.map OfferedItem.count).sum

/-- The checks of SellItemTask::Execute up to the deposit, in their order. -/
def AuctionWorld.checkOffer (config : Config) (world : AuctionWorld) (player : Nat)
    (packet : AuctionSellItem) (creature : Option Creature)
    : Except SellRefusal Offer :=
  if packet.items.length > maxAuctionItems then .error .databaseError
  else if packet.items.any (fun (guid, count) => guid = 0 || count = 0 || count > 1000) then
    .error .itemNotFound
  else if packet.bid = 0 || packet.expireTime = 0 then .error .databaseError
  else if packet.bid > maxMoneyAmount || packet.buyout > maxMoneyAmount then
    .error .databaseError
  else match creature with
    | none => .error .databaseError
    | some creature => match getAuctionHouseEntry config creature with
        | none => .error .databaseError
        | some houseEntry =>
            -- Minutes: twelve hours, one day, two days.
            if packet.expireTime ≠ 720 ∧ packet.expireTime ≠ 1440 ∧ packet.expireTime ≠ 2880 then
              .error .databaseError
            else match world.collectItems player 0 packet.items with
              | .error error => .error error
              | .ok [] => .error .itemNotFound
              | .ok (first :: others) =>
                  let offer : Offer :=
                    { house := getAuctionsMap config creature, houseEntry := houseEntry,
                      first := first, others := others }
                  if !(packet.items.map Prod.fst).Nodup then .error .itemNotFound
                  else if (first :: others).any
                      (fun offered => offered.item.maxStackCount < offer.finalCount) then
                    .error .itemNotFound
                  else .ok offer

def AuctionWorld.takeFromStack (world : AuctionWorld) (offered : OfferedItem) : AuctionWorld :=
  if offered.item.count = offered.count then
    { world with carried := world.carried.remove offered.guid }
  else
    let reduce := fun (stored : CarriedItem) =>
      { stored with item := { stored.item with count := stored.item.count - offered.count } }
    { world with carried := world.carried.modify offered.guid reduce }

/-- The auctioned item leaves the bags: the stack itself when one whole stack is offered, else a
new item of the whole count.
-/
def AuctionWorld.takeItem (world : AuctionWorld) (offer : Offer) : AuctionWorld × Nat × Item :=
  if offer.others = [] ∧ offer.first.item.count = offer.first.count then
    ({ world with carried := world.carried.remove offer.first.guid },
      offer.first.guid, offer.first.item)
  else
    ({ (offer.first :: offer.others).foldl AuctionWorld.takeFromStack world with
        itemGuid := world.itemGuid + 1 },
      world.itemGuid, { offer.first.item with count := offer.finalCount })

/-- The end of SellItemTask::Execute: the deposit is charged, the item and the auction added. -/
def AuctionWorld.list (config : Config) (world : AuctionWorld) (now : Int) (player : Nat)
    (packet : AuctionSellItem) (offer : Offer) (deposit : Nat) : AuctionWorld :=
  let id := world.auctionId
  let taken := AuctionWorld.takeItem { world.charge player deposit with auctionId := id + 1 } offer
  let auctionTime :=
    roundBinary32 (roundBinary32 (packet.expireTime * 60 : Nat) * config.rateAuctionTime)
  let auction : AuctionEntry :=
    { itemGuid := taken.2.1, itemID := taken.2.2.entry, itemCount := taken.2.2.count,
      playerOwner := player, startBid := packet.bid, buyOut := packet.buyout,
      expireTime := now + truncate auctionTime, deposit := deposit,
      auctionHouseEntry := offer.houseEntry }
  (taken.1.addAuctionItem taken.2.1 taken.2.2).addAuction offer.house id auction

def sellItem (config : Config) (characters : Characters) (world : AuctionWorld) (now : Int)
    (player : Nat) (packet : AuctionSellItem) (creature : Option Creature) : Handled :=
  if !characters.connected player then world.silent
  else match world.money.get? player with
    | none => world.silent
    | some money => match world.checkOffer config player packet creature with
        | .error refusal => { world := world, replies := [refusal.reply] }
        | .ok offer =>
            let deposit := getAuctionDeposit config offer.houseEntry packet.expireTime
              offer.first.item offer.finalCount
            if !hasEnoughMoney money deposit then world.answer .sellItem .notEnoughtMoney
            else
              { world := world.list config now player packet offer deposit,
                replies := [{ auctionID := world.auctionId, action := .sellItem,
                              errorCode := .ok }] }

-- Bidding

/-- The payment of a bid: a displaced bidder is told before the new one is charged. -/
def AuctionWorld.payBid (config : Config) (characters : Characters) (world : AuctionWorld)
    (id : Nat) (auction : AuctionEntry) (player price : Nat) : AuctionWorld :=
  match auction.bidder with
  | none => world.charge player price
  | some bidder =>
      if bidder = player then world.charge player (toUInt32 ((price : Int) - auction.bid))
      else (world.sendAuctionOutbiddedMail config characters id auction bidder).charge player price

def AuctionWorld.acceptBid (config : Config) (characters : Characters) (world : AuctionWorld)
    (house : AuctionHouses) (id : Nat) (auction : AuctionEntry) (player price : Nat)
    : AuctionWorld :=
  let paid := world.payBid config characters id auction player price
  paid.setAuctions house
    ((paid.auctions house).modify id
      (fun auction => { auction with bidder := some player, bid := price }))

/-- Every settlement ends so: the item leaves the map and the auction its house. -/
def AuctionWorld.closeAuction (world : AuctionWorld) (house : AuctionHouses) (id : Nat)
    (auction : AuctionEntry) : AuctionWorld :=
  (world.removeAItem auction.itemGuid).removeAuction house id

/-- The payment of a buyout: the buyer is charged before a displaced bidder is told. -/
def AuctionWorld.payBuyOut (config : Config) (characters : Characters) (world : AuctionWorld)
    (id : Nat) (auction : AuctionEntry) (player : Nat) : AuctionWorld :=
  match auction.bidder with
  | none => world.charge player auction.buyOut
  | some bidder =>
      if bidder = player then world.charge player (toUInt32 ((auction.buyOut : Int) - auction.bid))
      else
        (world.charge player auction.buyOut).sendAuctionOutbiddedMail config characters id auction
          bidder

def AuctionWorld.buyOut (config : Config) (characters : Characters) (world : AuctionWorld)
    (house : AuctionHouses) (id : Nat) (auction : AuctionEntry) (player : Nat) : AuctionWorld :=
  let paid := world.payBuyOut config characters id auction player
  let sold := { auction with bidder := some player, bid := auction.buyOut }
  let pending := paid.sendAuctionSalePendingMail config characters id sold
  let paidOut := pending.sendAuctionSuccessfulMail config characters id sold
  (paidOut.sendAuctionWonMail characters id sold player).closeAuction house id sold

def AuctionEntry.belowBuyOut (auction : AuctionEntry) (price : Nat) : Bool :=
  price < auction.buyOut || auction.buyOut = 0

def AuctionEntry.refusesIncrement (auction : AuctionEntry) (price : Nat) : Bool :=
  auction.belowBuyOut price && price < toUInt32 ((auction.bid : Int) + auction.getAuctionOutBid)

def AuctionEntry.ownedBy (auction : AuctionEntry) (characters : Characters) (player account : Nat)
    : Bool :=
  auction.playerOwner = player
    || (!characters.connected auction.playerOwner
        && characters.accountId auction.playerOwner = account)

def AuctionEntry.lowBidReplies (auction : AuctionEntry) (id price : Nat) : List CommandResult :=
  if price ≤ auction.bid ∨ price < auction.startBid then
    [{ auctionID := id, action := .placeBid, errorCode := .higherBid }]
  else []

/-- PlaceBidTask::Execute from the first look at the price on. The answer to a low price is sent
and the function goes on.
-/
def AuctionWorld.bidOn (config : Config) (characters : Characters) (world : AuctionWorld)
    (house : AuctionHouses) (id : Nat) (auction : AuctionEntry) (player money price : Nat)
    : Handled :=
  let low := auction.lowBidReplies id price
  if auction.refusesIncrement price then
    { world := world,
      replies := low ++ [{ auctionID := id, action := .placeBid, errorCode := .bidIncrement }] }
  else if !hasEnoughMoney money price then { world := world, replies := low }
  else if auction.belowBuyOut price then
    { world := world.acceptBid config characters house id auction player price,
      replies := low ++ [{ auctionID := id, action := .placeBid, errorCode := .ok }] }
  else
    { world := world.buyOut config characters house id auction player,
      replies := low ++ [{ auctionID := id, action := .placeBid, errorCode := .ok }] }

def placeBid (config : Config) (characters : Characters) (world : AuctionWorld)
    (player account : Nat) (creature : Option Creature) (auctionID price : Nat) : Handled :=
  if auctionID = 0 ∨ price = 0 then world.silent
  else if !characters.connected player then world.silent
  else match world.money.get? player, creature with
    | none, _ => world.silent
    | some _, none => world.silent
    | some money, some creature =>
        let house := getAuctionsMap config creature
        match world.getAuction house auctionID with
        | none => world.answer .placeBid .bidOwn
        | some auction =>
            if auction.ownedBy characters player account then world.answer .placeBid .bidOwn
            else world.bidOn config characters house auctionID auction player money price

-- Cancelling and expiring

/-- HandleAuctionRemoveItem, once the owner's auction and its item are found. -/
def AuctionWorld.cancel (config : Config) (characters : Characters) (world : AuctionWorld)
    (house : AuctionHouses) (id : Nat) (auction : AuctionEntry) (player : Nat) : AuctionWorld :=
  let refunded := match auction.bidder with
    | none => world
    | some bidder =>
        (world.sendAuctionCancelledToBidderMail characters id auction bidder).charge player
          (auction.getAuctionCut config)
  (refunded.sendMail (auction.canceledMail id player)).closeAuction house id auction

/-- HandleAuctionRemoveItem; the player is the one of the session, so connected. -/
def handleAuctionRemoveItem (config : Config) (characters : Characters) (world : AuctionWorld)
    (player : Nat) (creature : Option Creature) (auctionID : Nat) : Handled :=
  if !characters.connected player then world.silent
  else match world.money.get? player, creature with
    | none, _ => world.silent
    | some _, none => world.silent
    | some money, some creature =>
        let house := getAuctionsMap config creature
        match world.getAuction house auctionID with
        | none => world.answer .cancel .databaseError
        | some auction =>
            if auction.playerOwner ≠ player then world.answer .cancel .databaseError
            else match world.getAuctionItem auction.itemGuid with
              | none => world.answer .cancel .itemNotFound
              | some _ =>
                  if auction.bidder.isSome
                      && !hasEnoughMoney money (auction.getAuctionCut config) then
                    world.silent
                  else
                    { world := world.cancel config characters house auctionID auction player,
                      replies :=
                        [{ auctionID := auctionID, action := .cancel, errorCode := .ok }] }

/-- What Update does with one expired auction before the auctions are erased. -/
def AuctionWorld.settleExpired (config : Config) (characters : Characters) (world : AuctionWorld)
    (id : Nat) (auction : AuctionEntry) : AuctionWorld :=
  let mailed := match auction.bidder with
    | none => world.sendAuctionExpiredMail characters id auction
    | some bidder =>
        (world.sendAuctionSuccessfulMail config characters id auction).sendAuctionWonMail characters
          id auction bidder
  mailed.removeAItem auction.itemGuid

/-- The auctions of a house that Update settles: those that expire within a minute. -/
def AuctionWorld.expired (world : AuctionWorld) (now : Int) (house : AuctionHouses)
    : List ((_ : Nat) × AuctionEntry) :=
  (world.auctions house).entries.filter
    (fun entry => !(decide (entry.2.expireTime > now + 60)))

/-- AuctionHouseObject::Update: expired auctions are settled first and erased afterwards. -/
def AuctionWorld.updateHouse (config : Config) (characters : Characters) (now : Int)
    (world : AuctionWorld) (house : AuctionHouses) : AuctionWorld :=
  let expired := world.expired now house
  let settled :=
    expired.foldl (fun world entry => world.settleExpired config characters entry.1 entry.2) world
  (expired.map Sigma.fst).foldl (fun world id => world.removeAuction house id) settled

def AuctionWorld.update (config : Config) (characters : Characters) (now : Int)
    (world : AuctionWorld) : AuctionWorld :=
  ((world.updateHouse config characters now .horde).updateHouse config characters now
    .alliance).updateHouse config characters now .neutral

-- Requests

inductive AuctionRequest where
  | sellItem (player : Nat) (packet : AuctionSellItem) (creature : Option Creature)
  | placeBid (player account : Nat) (creature : Option Creature) (auctionID price : Nat)
  | removeItem (player : Nat) (creature : Option Creature) (auctionID : Nat)
  | update

/-- A request, with the time and the characters of the moment it is handled. -/
structure Turn where
  characters : Characters
  now : Int
  request : AuctionRequest

def lastAuctionId : Nat := 0xFFFFFFFE

def handle (config : Config) (world : AuctionWorld) (turn : Turn) : Handled :=
  if world.auctionId > lastAuctionId then world.silent
  else match turn.request with
    | .sellItem player packet creature =>
        sellItem config turn.characters world turn.now player packet creature
    | .placeBid player account creature auctionID price =>
        placeBid config turn.characters world player account creature auctionID price
    | .removeItem player creature auctionID =>
        handleAuctionRemoveItem config turn.characters world player creature auctionID
    | .update => (world.update config turn.characters turn.now).silent

def step (config : Config) (world : AuctionWorld) (turn : Turn) : AuctionWorld :=
  (handle config world turn).world

end WarheadCore.Auction
