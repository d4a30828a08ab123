import WarheadCore.Auction.Effects

/-! The accepted requests as single record updates.
A bid, a listing and the settlement of an auction are each one update of the world, whichever
functions of the source they go through; the laws are proved about these.
-/

namespace WarheadCore.Auction

open Foundation Foundation.Runs WarheadCore.Player

-- Bids

namespace AuctionEntry

def charged (auction : AuctionEntry) (player price : Nat) : Nat :=
  if auction.bidder = some player then price - auction.bid else price

def withBid (auction : AuctionEntry) (player price : Nat) : AuctionEntry :=
  { auction with bidder := some player, bid := price }

def refunds (config : Config) (characters : Characters) (id : Nat) (auction : AuctionEntry)
    (player : Nat) : List AuctionMail :=
  match auction.bidder with
  | none => []
  | some bidder =>
      if bidder = player then []
      else characters.delivered (auction.outbiddedMail config id bidder)

end AuctionEntry

namespace AuctionWorld

def rebid (config : Config) (characters : Characters) (world : AuctionWorld)
    (house : AuctionHouses) (id : Nat) (auction : AuctionEntry) (player price : Nat)
    : AuctionWorld :=
  let paid := fun (money : Nat) => money - auction.charged player price
  let bid := (world.auctions house).modify id (fun auction => auction.withBid player price)
  { world with
    auctions := Function.update world.auctions house bid,
    money := world.money.modify player paid,
    mails := world.mails ++ auction.refunds config characters id player }

/-- The world after an auction is settled: its item goes out with a mail or is deleted. -/
def settled (characters : Characters) (world : AuctionWorld) (house : AuctionHouses)
    (id itemGuid : Nat) (money : Table Nat Nat) (notes : List AuctionMail) (mail : AuctionMail)
    : AuctionWorld :=
  { world with
    auctions := Function.update world.auctions house ((world.auctions house).remove id),
    items := world.items.remove itemGuid,
    money := money,
    mails := world.mails ++ notes ++ characters.delivered { mail with item := some itemGuid },
    deletedItems := world.deletedItems
      ++ if characters.present mail.receiver then [] else [itemGuid] }

variable {config : Config} {characters : Characters} {world : AuctionWorld}
  {house : AuctionHouses} {id player price money : Nat} {auction : AuctionEntry}

/-- What a bid or a buyout charges, when the purse and the invariant bound it. -/
private theorem pay_eq (purse : world.money.get? player = some money)
    (bounded : money ≤ maxMoneyAmount) (ended : auction.bid ≤ price) (enough : price ≤ money)
    : world.charge player
          (if auction.bidder = some player then toUInt32 ((price : Int) - auction.bid) else price)
      = { world with
          money := world.money.modify player
            (fun money => money - auction.charged player price) } := by
  unfold AuctionEntry.charged
  have capped : money < 0x100000000 := lt_of_le_of_lt bounded (by decide)
  split
  · have difference : toUInt32 ((price : Int) - auction.bid) = price - auction.bid := by
      unfold toUInt32
      omega
    rw [difference]
    exact charge_eq world purse bounded (by omega)
  · exact charge_eq world purse bounded enough

/-- The payment of a bid as one update. -/
private theorem payBid_eq (purse : world.money.get? player = some money)
    (bounded : money ≤ maxMoneyAmount) (ended : auction.bid ≤ price) (enough : price ≤ money)
    : world.payBid config characters id auction player price
      = { world with
          money := world.money.modify player
            (fun money => money - auction.charged player price),
          mails := world.mails ++ auction.refunds config characters id player } := by
  unfold payBid AuctionEntry.refunds
  cases bidder : auction.bidder with
  | none =>
      have paid := pay_eq purse bounded ended enough
      rw [bidder, if_neg (by simp)] at paid
      simp only [paid, List.append_nil]
  | some oldBidder =>
      by_cases self : oldBidder = player
      · subst self
        have paid := pay_eq purse bounded ended enough
        rw [bidder, if_pos rfl] at paid
        simp only [if_true, paid, List.append_nil]
      · have purse' : (world.sendAuctionOutbiddedMail config characters id auction
            oldBidder).money.get? player = some money := by
          rw [sendAuctionOutbiddedMail, mailTo_eq]
          exact purse
        have paid := pay_eq purse' bounded ended enough
        rw [bidder, if_neg (by simpa using self), sendAuctionOutbiddedMail, mailTo_eq] at paid
        simp only [if_neg self, sendAuctionOutbiddedMail, mailTo_eq]
        rw [paid]

/-- The accepting branch is the update of a bid. -/
theorem acceptBid_eq (purse : world.money.get? player = some money)
    (bounded : money ≤ maxMoneyAmount) (ended : auction.bid ≤ price) (enough : price ≤ money)
    : world.acceptBid config characters house id auction player price
      = world.rebid config characters house id auction player price := by
  unfold acceptBid
  rw [payBid_eq purse bounded ended enough]
  rfl

-- Settlements

/-- Mailing the item and closing the auction, after any payments and mails, is one settlement. -/
theorem mail_close_eq (stored : (world.items.get? auction.itemGuid).isSome = true)
    (money : Table Nat Nat) (notes : List AuctionMail) (mail : AuctionMail)
    : (mailItemTo characters { world with money := money, mails := world.mails ++ notes }
          auction.itemGuid mail).closeAuction house id auction
      = world.settled characters house id auction.itemGuid money notes mail := by
  unfold closeAuction settled removeAuction setAuctions
  have mailed := mailItemTo_eq { world with money := money, mails := world.mails ++ notes }
    characters mail stored
  rw [mailed, removeAItem_eq]
  have removed : (world.items.remove auction.itemGuid).remove auction.itemGuid
      = world.items.remove auction.itemGuid :=
    Table.remove_of_absent (Table.get?_remove_self _ _)
  by_cases present : characters.present mail.receiver = true
  · simp [present]
  · simp [present, removed]

/-- The payment of a buyout, with the mail to the displaced bidder. -/
private theorem payBuyOut_eq (purse : world.money.get? player = some money)
    (bounded : money ≤ maxMoneyAmount) (ended : auction.bid ≤ auction.buyOut)
    (enough : auction.buyOut ≤ money)
    : world.payBuyOut config characters id auction player
      = { world with
          money := world.money.modify player
            (fun money => money - auction.charged player auction.buyOut),
          mails := world.mails ++ auction.refunds config characters id player } := by
  have paid := pay_eq purse bounded ended enough
  unfold payBuyOut AuctionEntry.refunds
  cases bidder : auction.bidder with
  | none =>
      rw [bidder, if_neg (by simp)] at paid
      simp only [paid, List.append_nil]
  | some oldBidder =>
      by_cases self : oldBidder = player
      · subst self
        rw [bidder, if_pos rfl] at paid
        simp only [if_true, paid, List.append_nil]
      · rw [bidder, if_neg (by simpa using self)] at paid
        simp only [if_neg self, paid, sendAuctionOutbiddedMail, mailTo_eq]

/-- A buyout is a settlement in favour of the buyer. -/
theorem buyOut_eq (purse : world.money.get? player = some money)
    (bounded : money ≤ maxMoneyAmount) (ended : auction.bid ≤ auction.buyOut)
    (enough : auction.buyOut ≤ money)
    (stored : (world.items.get? auction.itemGuid).isSome = true)
    : world.buyOut config characters house id auction player
      = world.settled characters house id auction.itemGuid
          (world.money.modify player (fun money => money - auction.charged player auction.buyOut))
          (auction.refunds config characters id player
            ++ characters.delivered ((auction.withBid player auction.buyOut).salePendingMail config id)
            ++ characters.delivered ((auction.withBid player auction.buyOut).successfulMail config id))
          ((auction.withBid player auction.buyOut).wonMail id player) := by
  unfold buyOut
  rw [payBuyOut_eq purse bounded ended enough]
  simp only [sendAuctionSalePendingMail, sendAuctionSuccessfulMail, sendAuctionWonMail, mailTo_eq,
    List.append_assoc]
  exact mail_close_eq stored _ _ _

/-- Returning the item with a mail the owner is there to receive is one settlement. -/
private theorem canceled_close_eq
    (connected : characters.connected player = true) (money : Table Nat Nat)
    (notes : List AuctionMail)
    : (sendMail { world with money := money, mails := world.mails ++ notes }
          (auction.canceledMail id player)).closeAuction house id auction
      = world.settled characters house id auction.itemGuid money notes
          (auction.canceledMail id player) := by
  have present : characters.present (auction.canceledMail id player).receiver = true :=
    present_of_connected connected
  unfold closeAuction settled removeAuction setAuctions sendMail Characters.delivered
  rw [removeAItem_eq, if_pos present, if_pos present]
  simp [AuctionEntry.canceledMail]

/-- A cancelled auction is settled in favour of its owner. -/
theorem cancel_eq (purse : world.money.get? player = some money)
    (bounded : money ≤ maxMoneyAmount)
    (connected : characters.connected player = true)
    (enough : auction.bidder.isSome = true → auction.getAuctionCut config ≤ money)
    : world.cancel config characters house id auction player
      = world.settled characters house id auction.itemGuid
          (match auction.bidder with
            | none => world.money
            | some _ => world.money.modify player (fun money => money - auction.getAuctionCut config))
          (match auction.bidder with
            | none => []
            | some bidder => characters.delivered (auction.cancelledToBidderMail id bidder))
          (auction.canceledMail id player) := by
  unfold cancel
  cases bidder : auction.bidder with
  | none =>
      have closed := @canceled_close_eq characters world house id player auction connected
        world.money []
      simpa only [List.append_nil] using closed
  | some oldBidder =>
      simp only [sendAuctionCancelledToBidderMail, mailTo_eq]
      have charged := charge_eq
        { world with
          mails := world.mails ++ characters.delivered (auction.cancelledToBidderMail id oldBidder) }
        purse bounded (enough (by simp [bidder]))
      rw [charged]
      exact @canceled_close_eq characters world house id player auction connected _ _

/-- Settling an expired auction and erasing it is one settlement. -/
theorem settleExpired_eq (stored : (world.items.get? auction.itemGuid).isSome = true)
    : (world.settleExpired config characters id auction).removeAuction house id
      = world.settled characters house id auction.itemGuid world.money
          (match auction.bidder with
            | none => []
            | some _ => characters.delivered (auction.successfulMail config id))
          (match auction.bidder with
            | none => auction.expiredMail id
            | some bidder => auction.wonMail id bidder) := by
  unfold settleExpired
  cases bidder : auction.bidder with
  | none =>
      have closed := @mail_close_eq characters world house id auction stored world.money []
        (auction.expiredMail id)
      rw [List.append_nil] at closed
      exact closed
  | some winner =>
      simp only [sendAuctionSuccessfulMail, sendAuctionWonMail, mailTo_eq]
      exact mail_close_eq stored world.money _ _

-- Listings

def listed (world : AuctionWorld) (house : AuctionHouses) (auction : AuctionEntry) (item : Item)
    (money : Table Nat Nat) (carried : Table Nat CarriedItem) (itemGuid : Nat) : AuctionWorld :=
  let added := (world.auctions house).emplace world.auctionId auction
  { world with
    auctions := Function.update world.auctions house added,
    items := world.items.emplace auction.itemGuid item,
    money := money,
    carried := carried,
    auctionId := world.auctionId + 1,
    itemGuid := itemGuid }

/-- The bags after a listing: the auctioned item is a carried one that left them, or a new one. -/
structure TakenFromBags (world : AuctionWorld) (carried : Table Nat CarriedItem)
    (itemGuid guid : Nat) : Prop where
  kept : ∀ other stored, carried.get? other = some stored → (world.carried.get? other).isSome = true
  source : ((world.carried.get? guid).isSome = true ∧ carried.get? guid = none
      ∧ world.items.get? guid = none ∧ itemGuid = world.itemGuid)
    ∨ (guid = world.itemGuid ∧ itemGuid = world.itemGuid + 1)

/-- Taking part of a stack changes the bags only, and adds nothing to them. -/
private theorem takeFromStack_eq (offered : OfferedItem) (world : AuctionWorld)
    : ∃ carried, world.takeFromStack offered = { world with carried := carried }
        ∧ ∀ other stored, carried.get? other = some stored
            → (world.carried.get? other).isSome = true := by
  unfold takeFromStack
  split
  · refine ⟨_, rfl, fun other stored found => ?_⟩
    rw [Table.get?_remove] at found
    split at found
    · simp at found
    · exact Option.isSome_of_eq_some found
  · refine ⟨_, rfl, fun other stored found => ?_⟩
    rw [Table.get?_modify] at found
    split at found
    · obtain ⟨before, stored', rfl⟩ := Option.map_eq_some_iff.mp found
      exact Option.isSome_of_eq_some stored'
    · exact Option.isSome_of_eq_some found

/-- So does taking parts of several stacks. -/
private theorem takeFromStack_foldl (offered : List OfferedItem) (world : AuctionWorld)
    : ∃ carried, offered.foldl takeFromStack world = { world with carried := carried }
        ∧ ∀ other stored, carried.get? other = some stored
            → (world.carried.get? other).isSome = true := by
  induction offered generalizing world with
  | nil => exact ⟨world.carried, rfl, fun other stored found => Option.isSome_of_eq_some found⟩
  | cons first rest ih =>
      obtain ⟨once, taken, less⟩ := takeFromStack_eq first world
      obtain ⟨carried, folded, kept⟩ := ih (world.takeFromStack first)
      rw [taken] at folded kept
      refine ⟨carried, by rw [List.foldl_cons, taken, folded], fun other stored found => ?_⟩
      obtain ⟨between, found'⟩ := Option.isSome_iff_exists.mp (kept other stored found)
      exact less other between found'

end AuctionWorld

/-- The first collected item is carried and not auctioned. -/
private theorem collectItems_ok {world : AuctionWorld} {player itemEntry : Nat}
    {items : List (Nat × Nat)} {first : OfferedItem} {others : List OfferedItem}
    (h : world.collectItems player itemEntry items = .ok (first :: others))
    : (world.carried.get? first.guid).isSome = true ∧ world.items.get? first.guid = none := by
  cases items with
  | nil => simp [AuctionWorld.collectItems] at h
  | cons offered rest =>
      obtain ⟨guid, count⟩ := offered
      unfold AuctionWorld.collectItems at h
      cases item : world.getItemByGuid player guid with
      | none => simp [item] at h
      | some stored =>
          simp only [item] at h
          have carried : (world.carried.get? guid).isSome = true := by
            unfold AuctionWorld.getItemByGuid at item
            cases found : world.carried.get? guid with
            | none => simp [found] at item
            | some _ => rfl
          by_cases auctioned : (world.getAuctionItem guid).isSome = true
          · rw [if_pos auctioned] at h
            simp at h
          · rw [if_neg auctioned] at h
            have absent : world.items.get? guid = none := by
              simpa [AuctionWorld.getAuctionItem] using auctioned
            repeat' split at h
            all_goals try simp at h
            all_goals
              obtain ⟨rfl, rfl⟩ := h
              exact ⟨carried, absent⟩

def Offer.offered (offer : Offer) : List OfferedItem := offer.first :: offer.others

/-- An accepted offer holds the stacks of the packet, each once. -/
theorem checkOffer_collected {config : Config} {world : AuctionWorld} {player : Nat}
    {packet : AuctionSellItem} {creature : Option Creature} {offer : Offer}
    (h : world.checkOffer config player packet creature = .ok offer)
    : world.collectItems player 0 packet.items = .ok offer.offered
        ∧ (packet.items.map Prod.fst).Nodup := by
  unfold AuctionWorld.checkOffer at h
  cases collected : world.collectItems player 0 packet.items with
  | error refusal =>
      simp only [collected] at h
      repeat' split at h
      all_goals simp at h
  | ok offered =>
      cases offered with
      | nil =>
          simp only [collected] at h
          repeat' split at h
          all_goals simp at h
      | cons first others =>
          simp only [collected] at h
          repeat' split at h
          all_goals try simp at h
          rename_i repeated _
          obtain rfl := h
          exact ⟨rfl, by simpa using repeated⟩

/-- An accepted offer starts with a carried item that is not auctioned. -/
theorem checkOffer_ok {config : Config} {world : AuctionWorld} {player : Nat}
    {packet : AuctionSellItem} {creature : Option Creature} {offer : Offer}
    (h : world.checkOffer config player packet creature = .ok offer)
    : (world.carried.get? offer.first.guid).isSome = true
        ∧ world.items.get? offer.first.guid = none :=
  collectItems_ok (checkOffer_collected h).1

namespace AuctionWorld

variable {config : Config} {characters : Characters} {world : AuctionWorld}
  {house : AuctionHouses} {id player price money : Nat} {auction : AuctionEntry}

structure NewAuction (auction : AuctionEntry) (player deposit : Nat) (packet : AuctionSellItem)
    : Prop where
  owner : auction.playerOwner = player
  startBid : auction.startBid = packet.bid
  buyOut : auction.buyOut = packet.buyout
  bid : auction.bid = 0
  bidder : auction.bidder = none
  deposit : auction.deposit = deposit

/-- Selling is one listing of an item that is carried or new. -/
theorem list_eq (now : Int) {packet : AuctionSellItem} {creature : Option Creature} {offer : Offer}
    {deposit : Nat} (offered : world.checkOffer config player packet creature = .ok offer)
    (purse : world.money.get? player = some money) (bounded : money ≤ maxMoneyAmount)
    (enough : deposit ≤ money)
    : ∃ auction item carried itemGuid,
        world.list config now player packet offer deposit
          = world.listed offer.house auction item
              (world.money.modify player (fun money => money - deposit)) carried itemGuid
        ∧ NewAuction auction player deposit packet
        ∧ TakenFromBags world carried itemGuid auction.itemGuid := by
  obtain ⟨isCarried, notAuctioned⟩ := checkOffer_ok offered
  have charged := charge_eq world purse bounded enough
  unfold list takeItem
  by_cases whole : offer.others = [] ∧ offer.first.item.count = offer.first.count
  · simp only [if_pos whole, charged]
    exact ⟨_, _, world.carried.remove offer.first.guid, _, rfl, ⟨rfl, rfl, rfl, rfl, rfl, rfl⟩,
      { kept := by
          intro other stored found
          rw [Table.get?_remove] at found
          split at found
          · simp at found
          · exact Option.isSome_of_eq_some found
        source := .inl ⟨isCarried, Table.get?_remove_self _ _, notAuctioned, rfl⟩ }⟩
  · simp only [if_neg whole, charged]
    obtain ⟨carried, folded, kept⟩ := takeFromStack_foldl (offer.first :: offer.others)
      { world with
        money := world.money.modify player (fun money => money - deposit),
        auctionId := world.auctionId + 1 }
    simp only [folded]
    exact ⟨_, _, carried, _, rfl, ⟨rfl, rfl, rfl, rfl, rfl, rfl⟩,
      { kept := kept, source := .inr ⟨rfl, rfl⟩ }⟩

-- The timer

structure DueAuction where
  house : AuctionHouses
  id : Nat
  auction : AuctionEntry

def expire (config : Config) (characters : Characters) (world : AuctionWorld) (due : DueAuction)
    : AuctionWorld :=
  (world.settleExpired config characters due.id due.auction).removeAuction due.house due.id

/-- The due auctions of one house, in the order in which Update meets them. -/
def dueIn (world : AuctionWorld) (now : Int) (house : AuctionHouses) : List DueAuction :=
  (world.expired now house).map (fun entry => ⟨house, entry.1, entry.2⟩)

def due (world : AuctionWorld) (now : Int) : List DueAuction :=
  world.dueIn now .horde ++ world.dueIn now .alliance ++ world.dueIn now .neutral

private theorem mailItemTo_removeAuction (itemGuid other : Nat) (mail : AuctionMail)
    : (world.mailItemTo characters itemGuid mail).removeAuction house other
      = (world.removeAuction house other).mailItemTo characters itemGuid mail := by
  unfold mailItemTo
  have same : (world.removeAuction house other).getAuctionItem itemGuid
      = world.getAuctionItem itemGuid := rfl
  rw [same]
  cases world.getAuctionItem itemGuid with
  | none => rfl
  | some item =>
      by_cases present : characters.present mail.receiver = true
      · simp only [if_pos present]
        rfl
      · simp only [if_neg present, removeAItem_eq]
        rfl

private theorem mailTo_removeAuction (other : Nat) (mail : AuctionMail)
    : (world.mailTo characters mail).removeAuction house other
      = (world.removeAuction house other).mailTo characters mail := by
  rw [mailTo_eq, mailTo_eq]
  rfl

private theorem removeAItem_removeAuction (itemGuid other : Nat)
    : (world.removeAItem itemGuid).removeAuction house other
      = (world.removeAuction house other).removeAItem itemGuid := by
  rw [removeAItem_eq, removeAItem_eq]
  rfl

/-- Settling an auction reads no house, so it commutes with erasing another. -/
private theorem settleExpired_removeAuction (other : Nat)
    : (world.settleExpired config characters id auction).removeAuction house other
      = (world.removeAuction house other).settleExpired config characters id auction := by
  unfold settleExpired
  cases auction.bidder with
  | none =>
      simp only [sendAuctionExpiredMail]
      rw [removeAItem_removeAuction, mailItemTo_removeAuction]
  | some winner =>
      simp only [sendAuctionSuccessfulMail, sendAuctionWonMail]
      rw [removeAItem_removeAuction, mailItemTo_removeAuction, mailTo_removeAuction]

/-- The two passes over a house are one settlement after the other. -/
private theorem updateHouse_eq (now : Int)
    : world.updateHouse config characters now house
      = run (expire config characters) world (world.dueIn now house) := by
  have passes := @foldl_foldl_eq_run _ _ _
    (fun world entry => world.settleExpired config characters entry.1 entry.2)
    (fun world id => world.removeAuction house id) Sigma.fst
    (fun world entry other => settleExpired_removeAuction other) world (world.expired now house)
  unfold updateHouse dueIn
  rw [passes]
  unfold run
  rw [List.foldl_map]
  rfl

private theorem mailItemTo_auctions (itemGuid : Nat) (mail : AuctionMail)
    : (world.mailItemTo characters itemGuid mail).auctions = world.auctions := by
  unfold mailItemTo
  split
  · rfl
  · split
    · rfl
    · rw [removeAItem_eq]

/-- Expiring an auction touches no other house. -/
private theorem expire_auctions (due : DueAuction) {other : AuctionHouses} (h : other ≠ due.house)
    : (world.expire config characters due).auctions other = world.auctions other := by
  have settled : (world.settleExpired config characters due.id due.auction).auctions
      = world.auctions := by
    unfold settleExpired
    cases due.auction.bidder with
    | none => simp only [removeAItem_eq, sendAuctionExpiredMail, mailItemTo_auctions]
    | some winner =>
        simp only [removeAItem_eq, sendAuctionWonMail, sendAuctionSuccessfulMail,
          mailItemTo_auctions, mailTo_eq]
  unfold expire removeAuction setAuctions
  rw [settled]
  exact Function.update_of_ne h _ _

/-- Settling the due auctions of one house leaves the others' due auctions. -/
private theorem dueIn_updateHouse (now : Int) {other : AuctionHouses} (h : other ≠ house)
    : (world.updateHouse config characters now house).dueIn now other = world.dueIn now other := by
  have unchanged (dues : List DueAuction) (world : AuctionWorld)
      (inHouse : ∀ due ∈ dues, due.house = house)
      : (run (expire config characters) world dues).auctions other = world.auctions other := by
    induction dues generalizing world with
    | nil => rfl
    | cons due rest ih =>
        have here := inHouse due (List.mem_cons_self)
        rw [run_cons, ih _ (fun later member => inHouse later (List.mem_cons_of_mem _ member)),
          expire_auctions due (here ▸ h)]
  have table := unchanged (world.dueIn now house) world (by
    intro due member
    obtain ⟨entry, _, rfl⟩ := List.mem_map.mp member
    rfl)
  unfold dueIn expired at *
  rw [updateHouse_eq]
  unfold dueIn expired
  rw [table]

/-- Update settles the due auctions of the three houses, one after the other. -/
theorem update_eq (now : Int)
    : world.update config characters now = run (expire config characters) world (world.due now) := by
  have alliance : (world.updateHouse config characters now .horde).dueIn now .alliance
      = world.dueIn now .alliance := dueIn_updateHouse now (by simp)
  have neutral : ((world.updateHouse config characters now .horde).updateHouse config characters now
      .alliance).dueIn now .neutral = world.dueIn now .neutral := by
    rw [dueIn_updateHouse now (by simp), dueIn_updateHouse now (by simp)]
  unfold update due
  rw [run_append, run_append, ← updateHouse_eq, ← alliance, ← updateHouse_eq, ← neutral,
    ← updateHouse_eq]

end AuctionWorld

end WarheadCore.Auction
