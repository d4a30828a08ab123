import WarheadCore.Foundation.Binary32
import WarheadCore.Foundation.Tables
import WarheadCore.Player.Money

/-! The auction houses, the item map of their manager, and the mails that leave them.
Amounts are natural numbers, with the 32-bit conversions of the source written out where an
operation could leave the range.
-/

namespace WarheadCore.Auction

open Foundation WarheadCore.Player

-- Configuration and percentages

/-- AuctionHouses. -/
inductive AuctionHouses where
  | alliance | horde | neutral
deriving DecidableEq

structure AuctionHouseEntry where
  cutPercent : Nat
  depositPercent : Nat
deriving DecidableEq

structure Config where
  rateAuctionTime : ℚ := 1
  rateAuctionDeposit : ℚ := 1
  rateAuctionCut : ℚ := 1
  allowTwoSideInteractionAuction : Bool := false
  auctionHouseStore : AuctionHouses → Option AuctionHouseEntry

/-- CalculatePct on an unsigned base: `T(base * float(pct) / 100.0f)`. -/
def calculatePct (base pct : Nat) : Nat :=
  floatToUInt32
    (roundBinary32
      (roundBinary32 (roundBinary32 (base : ℚ) * roundBinary32 (pct : ℚ)) / 100))

def calculatePctFloat (base : ℚ) (pct : Nat) : ℚ :=
  roundBinary32 (roundBinary32 (base * roundBinary32 (pct : ℚ)) / 100)

def factionMaskAlliance : Nat := 2
def factionMaskHorde : Nat := 4

/-- An auctioneer in reach: the `ourMask` of its faction template, if there is one. -/
structure Creature where
  faction : Option Nat
deriving DecidableEq

/-- GetAuctionsMap; GetAuctionHouseEntry looks up the row of the same house. -/
def getAuctionsMap (config : Config) (creature : Creature) : AuctionHouses :=
  if config.allowTwoSideInteractionAuction then .neutral
  else match creature.faction with
    | none => .neutral
    | some ourMask =>
        if ourMask &&& factionMaskAlliance ≠ 0 then .alliance
        else if ourMask &&& factionMaskHorde ≠ 0 then .horde
        else .neutral

def getAuctionHouseEntry (config : Config) (creature : Creature) : Option AuctionHouseEntry :=
  config.auctionHouseStore (getAuctionsMap config creature)

-- Auctions

/-- An auction; its `Id` is the key under which its house keeps it. -/
structure AuctionEntry where
  itemGuid : Nat
  itemID : Nat
  itemCount : Nat
  playerOwner : Nat
  startBid : Nat
  bid : Nat := 0
  buyOut : Nat
  expireTime : Int
  bidder : Option Nat := none
  deposit : Nat
  auctionHouseEntry : AuctionHouseEntry
deriving DecidableEq

def AuctionEntry.getAuctionCut (config : Config) (auction : AuctionEntry) : Nat :=
  (max (floatToInt32
    (roundBinary32
      (roundBinary32 (calculatePct auction.bid auction.auctionHouseEntry.cutPercent : ℚ)
        * config.rateAuctionCut))) 0).toNat

def AuctionEntry.getAuctionOutBid (auction : AuctionEntry) : Nat :=
  if calculatePct auction.bid 5 ≠ 0 then calculatePct auction.bid 5 else 1

/-- An item, with what the auction code asks of it and of its template. -/
structure Item where
  entry : Nat
  count : Nat
  canBeTraded : Bool := true
  isNotEmptyBag : Bool := false
  conjured : Bool := false
  duration : Nat := 0
  maxStackCount : Nat
  sellPrice : Nat
deriving DecidableEq

def ahMinimumDeposit : Nat := 100

def getAuctionDeposit (config : Config) (entry : AuctionHouseEntry) (expireTime : Nat)
    (item : Item) (count : Nat) : Nat :=
  let minDeposit :=
    floatToUInt32 (roundBinary32 (roundBinary32 (ahMinimumDeposit : ℚ) * config.rateAuctionDeposit))
  if item.sellPrice = 0 then minDeposit
  else
    let multiplier := calculatePctFloat (roundBinary32 (entry.depositPercent : ℚ)) 3
    let timeHr := expireTime / 60 / 12
    let priced := roundBinary32 (multiplier * roundBinary32 (item.sellPrice : ℚ))
    let counted := roundBinary32 (priced * roundBinary32 (count : ℚ))
    let timed := roundBinary32 (roundBinary32 (counted / 3) * roundBinary32 (timeHr : ℚ))
    let deposit :=
      floatToUInt32 (roundBinary32 (roundBinary32 (timed * 3) * config.rateAuctionDeposit))
    if deposit < minDeposit then minDeposit else deposit

-- Mails

inductive MailAuctionAnswers where
  | outbidded | won | successful | expired | cancelledToBidder | canceled | salePending
deriving DecidableEq

structure AuctionMailBody where
  guid : Option Nat
  bid : Nat
  buyout : Nat
  deposit : Nat := 0
  cut : Nat := 0
deriving DecidableEq

/-- A mail of the auction house: the fields of its subject, its body, and what it carries. -/
structure AuctionMail where
  receiver : Nat
  itemID : Nat
  response : MailAuctionAnswers
  auctionID : Nat
  itemCount : Nat
  body : AuctionMailBody
  money : Nat := 0
  item : Option Nat := none
deriving DecidableEq

/-- What SendAuctionSuccessfulMail pays the owner: `Bid + Deposit - GetAuctionCut()`. -/
def AuctionEntry.profit (config : Config) (auction : AuctionEntry) : Nat :=
  toUInt32 ((auction.bid : Int) + auction.deposit - auction.getAuctionCut config)

namespace AuctionEntry

variable (config : Config) (auction : AuctionEntry) (id : Nat)

def draft (receiver : Nat) (response : MailAuctionAnswers) (body : AuctionMailBody)
    : AuctionMail :=
  { receiver := receiver, itemID := auction.itemID, response := response, auctionID := id,
    itemCount := auction.itemCount, body := body }

/-- The mail of SendAuctionWonMail; the item is added when it is sent. -/
def wonMail (bidder : Nat) : AuctionMail :=
  auction.draft id bidder .won
    { guid := auction.playerOwner, bid := auction.bid, buyout := auction.buyOut }

def salePendingMail : AuctionMail :=
  auction.draft id auction.playerOwner .salePending
    { guid := auction.bidder, bid := auction.bid, buyout := auction.buyOut,
      deposit := auction.deposit, cut := auction.getAuctionCut config }

def successfulMail : AuctionMail :=
  { auction.draft id auction.playerOwner .successful
      { guid := auction.bidder, bid := auction.bid, buyout := auction.buyOut,
        deposit := auction.deposit, cut := auction.getAuctionCut config } with
    money := auction.profit config }

/-- The mail of SendAuctionExpiredMail; the item is added when it is sent. -/
def expiredMail : AuctionMail :=
  auction.draft id auction.playerOwner .expired
    { guid := none, bid := 0, buyout := auction.buyOut, deposit := auction.deposit }

def outbiddedMail (oldBidder : Nat) : AuctionMail :=
  { auction.draft id oldBidder .outbidded
      { guid := auction.playerOwner, bid := auction.bid, buyout := auction.buyOut,
        deposit := auction.deposit, cut := auction.getAuctionCut config } with
    money := auction.bid }

def cancelledToBidderMail (bidder : Nat) : AuctionMail :=
  { auction.draft id bidder .cancelledToBidder
      { guid := auction.playerOwner, bid := auction.bid, buyout := auction.buyOut,
        deposit := auction.deposit } with
    money := auction.bid }

def canceledMail (player : Nat) : AuctionMail :=
  { auction.draft id player .canceled
      { guid := none, bid := 0, buyout := auction.buyOut, deposit := auction.deposit } with
    item := some auction.itemGuid }

end AuctionEntry

/-- Who is connected, and the account of each character, 0 when the character is gone. -/
structure Characters where
  connected : Nat → Bool
  accountId : Nat → Nat

def Characters.present (characters : Characters) (guid : Nat) : Bool :=
  characters.connected guid || characters.accountId guid ≠ 0

-- State

structure CarriedItem where
  owner : Nat
  item : Item
deriving DecidableEq

/-- The houses and the item map of the manager, with the purses and bags of the players, the
mails sent and the items whose rows were deleted.
-/
structure AuctionWorld where
  auctions : AuctionHouses → Table Nat AuctionEntry
  items : Table Nat Item
  money : Table Nat Nat
  carried : Table Nat CarriedItem
  mails : List AuctionMail
  deletedItems : List Nat
  auctionId : Nat
  itemGuid : Nat

namespace AuctionWorld

def getAuction (world : AuctionWorld) (house : AuctionHouses) (id : Nat) : Option AuctionEntry :=
  (world.auctions house).get? id

def getAuctionItem (world : AuctionWorld) (itemGuid : Nat) : Option Item :=
  world.items.get? itemGuid

def setAuctions (world : AuctionWorld) (house : AuctionHouses) (auctions : Table Nat AuctionEntry)
    : AuctionWorld :=
  { world with auctions := Function.update world.auctions house auctions }

def addAuction (world : AuctionWorld) (house : AuctionHouses) (id : Nat) (auction : AuctionEntry)
    : AuctionWorld :=
  world.setAuctions house ((world.auctions house).emplace id auction)

def removeAuction (world : AuctionWorld) (house : AuctionHouses) (id : Nat) : AuctionWorld :=
  world.setAuctions house ((world.auctions house).remove id)

def addAuctionItem (world : AuctionWorld) (itemGuid : Nat) (item : Item) : AuctionWorld :=
  { world with items := world.items.emplace itemGuid item }

/-- RemoveAItem: an item that is in the map leaves it, and its row too when asked. -/
def removeAItem (world : AuctionWorld) (itemGuid : Nat) (deleteFromDB : Bool := false)
    : AuctionWorld :=
  match world.items.get? itemGuid with
  | none => world
  | some _ =>
      let deletedItems :=
        if deleteFromDB then world.deletedItems ++ [itemGuid] else world.deletedItems
      { world with items := world.items.remove itemGuid, deletedItems := deletedItems }

def sendMail (world : AuctionWorld) (mail : AuctionMail) : AuctionWorld :=
  { world with mails := world.mails ++ [mail] }

def mailTo (characters : Characters) (world : AuctionWorld) (mail : AuctionMail) : AuctionWorld :=
  if characters.present mail.receiver then world.sendMail mail else world

/-- A mail with an item of the item map; the item is deleted when the receiver is gone. -/
def mailItemTo (characters : Characters) (world : AuctionWorld) (itemGuid : Nat)
    (mail : AuctionMail) : AuctionWorld :=
  match world.getAuctionItem itemGuid with
  | none => world
  | some _ =>
      if characters.present mail.receiver then world.sendMail { mail with item := some itemGuid }
      else world.removeAItem itemGuid true

def charge (world : AuctionWorld) (player amount : Nat) : AuctionWorld :=
  let paid := fun (money : Nat) => (modifyMoney money (-(toInt32 amount))).2
  { world with money := world.money.modify player paid }

-- The mails of an auction

variable (config : Config) (characters : Characters) (id : Nat) (auction : AuctionEntry)

def sendAuctionWonMail (bidder : Nat) (world : AuctionWorld) : AuctionWorld :=
  world.mailItemTo characters auction.itemGuid (auction.wonMail id bidder)

def sendAuctionSalePendingMail (world : AuctionWorld) : AuctionWorld :=
  world.mailTo characters (auction.salePendingMail config id)

def sendAuctionSuccessfulMail (world : AuctionWorld) : AuctionWorld :=
  world.mailTo characters (auction.successfulMail config id)

def sendAuctionExpiredMail (world : AuctionWorld) : AuctionWorld :=
  world.mailItemTo characters auction.itemGuid (auction.expiredMail id)

def sendAuctionOutbiddedMail (oldBidder : Nat) (world : AuctionWorld) : AuctionWorld :=
  world.mailTo characters (auction.outbiddedMail config id oldBidder)

def sendAuctionCancelledToBidderMail (bidder : Nat) (world : AuctionWorld) : AuctionWorld :=
  world.mailTo characters (auction.cancelledToBidderMail id bidder)

end AuctionWorld

end WarheadCore.Auction
