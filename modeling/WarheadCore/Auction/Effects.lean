import WarheadCore.Auction.Handlers
import WarheadCore.Foundation.Runs

/-! What one turn can do to the auction houses, said once.
Each handler is inverted into the cases below, with the guards that were passed; the laws of
bidding, of gold and of settlement are case analyses over them.
-/

namespace WarheadCore.Auction

open Foundation WarheadCore.Player

-- The state changes as record updates

theorem present_of_connected {characters : Characters} {guid : Nat}
    (connected : characters.connected guid = true)
    : characters.present guid = true := by
  unfold Characters.present
  rw [connected, Bool.true_or]

def Characters.delivered (characters : Characters) (mail : AuctionMail) : List AuctionMail :=
  if characters.present mail.receiver then [mail] else []

namespace AuctionWorld

variable (world : AuctionWorld)

theorem removeAItem_eq (itemGuid : Nat) (deleteFromDB : Bool)
    : world.removeAItem itemGuid deleteFromDB
      = { world with
          items := world.items.remove itemGuid,
          deletedItems := world.deletedItems
            ++ if deleteFromDB ∧ (world.items.get? itemGuid).isSome then [itemGuid] else [] } := by
  unfold removeAItem
  cases found : world.items.get? itemGuid with
  | none => simp [Table.remove_of_absent found]
  | some item =>
      cases deleteFromDB <;> simp

theorem mailTo_eq (characters : Characters) (mail : AuctionMail)
    : world.mailTo characters mail
      = { world with mails := world.mails ++ characters.delivered mail } := by
  unfold mailTo sendMail Characters.delivered
  split <;> simp

/-- A mail with an item of the map sends the item, or deletes it when the receiver is gone. -/
theorem mailItemTo_eq (characters : Characters) {itemGuid : Nat} (mail : AuctionMail)
    (stored : (world.items.get? itemGuid).isSome = true)
    : world.mailItemTo characters itemGuid mail
      = { world with
          mails := world.mails ++ characters.delivered { mail with item := some itemGuid },
          items :=
            if characters.present mail.receiver then world.items else world.items.remove itemGuid,
          deletedItems := world.deletedItems
            ++ if characters.present mail.receiver then [] else [itemGuid] } := by
  obtain ⟨item, found⟩ := Option.isSome_iff_exists.mp stored
  unfold mailItemTo getAuctionItem Characters.delivered
  rw [found]
  by_cases present : characters.present mail.receiver = true
  · simp [present, sendMail]
  · simp [present, removeAItem_eq, found]

/-- Taking an amount the purse holds subtracts exactly it. -/
theorem charge_eq {player money amount : Nat} (purse : world.money.get? player = some money)
    (bounded : money ≤ maxMoneyAmount) (enough : amount ≤ money)
    : world.charge player amount
      = { world with money := world.money.modify player (fun money => money - amount) } := by
  have exact : toInt32 amount = amount := by
    unfold maxMoneyAmount at bounded
    exact toInt32_of_range (by omega) (by omega)
  have paid : (modifyMoney money (-(toInt32 amount))).2 = money - amount := by
    rw [exact, modifyMoney_neg bounded enough]
  have modified
      : world.money.modify player (fun money => (modifyMoney money (-(toInt32 amount))).2)
        = world.money.modify player (fun money => money - amount) :=
    Table.modify_congr purse paid
  exact congrArg (fun table => { world with money := table }) modified

end AuctionWorld

-- What a turn does

structure BidArrives (config : Config) (world : AuctionWorld) (turn : Turn)
    (house : AuctionHouses) (id player price money : Nat) (auction : AuctionEntry) : Prop where
  running : world.auctionId ≤ lastAuctionId
  request : ∃ account creature,
    turn.request = .placeBid player account (some creature) id price
      ∧ house = getAuctionsMap config creature
      ∧ auction.ownedBy turn.characters player account = false
  nonzero : ¬ (id = 0 ∨ price = 0)
  connected : turn.characters.connected player = true
  purse : world.money.get? player = some money
  found : world.getAuction house id = some auction

structure OfferArrives (config : Config) (world : AuctionWorld) (turn : Turn)
    (player money deposit : Nat) (packet : AuctionSellItem) (offer : Offer) : Prop where
  running : world.auctionId ≤ lastAuctionId
  request : ∃ creature, turn.request = .sellItem player packet creature
    ∧ world.checkOffer config player packet creature = .ok offer
  purse : world.money.get? player = some money
  charged : deposit
    = getAuctionDeposit config offer.houseEntry packet.expireTime offer.first.item offer.finalCount
  enough : deposit ≤ money

structure CancelArrives (config : Config) (world : AuctionWorld) (turn : Turn)
    (house : AuctionHouses) (id player money : Nat) (auction : AuctionEntry) : Prop where
  running : world.auctionId ≤ lastAuctionId
  request : ∃ creature, turn.request = .removeItem player (some creature) id
    ∧ house = getAuctionsMap config creature
  connected : turn.characters.connected player = true
  purse : world.money.get? player = some money
  found : world.getAuction house id = some auction
  owner : auction.playerOwner = player
  item : (world.items.get? auction.itemGuid).isSome = true
  enough : auction.bidder.isSome = true → auction.getAuctionCut config ≤ money

/-- The cases of a turn: nothing, or one of the five changes with the guards it passed. -/
inductive TurnEffect (config : Config) (world : AuctionWorld) (turn : Turn) : Handled → Prop where
  | nothing {replies : List CommandResult} (refused : ∀ reply ∈ replies, reply.errorCode ≠ .ok)
      (stopped : turn.request = .update → lastAuctionId < world.auctionId)
      : TurnEffect config world turn { world := world, replies := replies }
  | listed {player money deposit : Nat} {packet : AuctionSellItem} {offer : Offer}
      (arrives : OfferArrives config world turn player money deposit packet offer)
      : TurnEffect config world turn
          { world := world.list config turn.now player packet offer deposit,
            replies := [{ auctionID := world.auctionId, action := .sellItem, errorCode := .ok }] }
  | bid {house : AuctionHouses} {id player price money : Nat} {auction : AuctionEntry}
      (arrives : BidArrives config world turn house id player price money auction)
      (increment : auction.refusesIncrement price = false) (enough : price ≤ money)
      (below : auction.belowBuyOut price = true)
      : TurnEffect config world turn
          { world := world.acceptBid config turn.characters house id auction player price,
            replies := auction.lowBidReplies id price ++
              [{ auctionID := id, action := .placeBid, errorCode := .ok }] }
  | boughtOut {house : AuctionHouses} {id player price money : Nat} {auction : AuctionEntry}
      (arrives : BidArrives config world turn house id player price money auction)
      (enough : price ≤ money) (below : auction.belowBuyOut price = false)
      : TurnEffect config world turn
          { world := world.buyOut config turn.characters house id auction player,
            replies := auction.lowBidReplies id price ++
              [{ auctionID := id, action := .placeBid, errorCode := .ok }] }
  | canceled {house : AuctionHouses} {id player money : Nat} {auction : AuctionEntry}
      (arrives : CancelArrives config world turn house id player money auction)
      : TurnEffect config world turn
          { world := world.cancel config turn.characters house id auction player,
            replies := [{ auctionID := id, action := .cancel, errorCode := .ok }] }
  | updated (running : world.auctionId ≤ lastAuctionId) (request : turn.request = .update)
      : TurnEffect config world turn
          { world := world.update config turn.characters turn.now, replies := [] }

section Inversion

variable (config : Config) (world : AuctionWorld) (turn : Turn)

variable (notUpdate : turn.request ≠ .update)

include notUpdate

private theorem refusal_effect {replies : List CommandResult}
    (refused : ∀ reply ∈ replies, reply.errorCode ≠ .ok)
    : TurnEffect config world turn { world := world, replies := replies } :=
  .nothing refused (fun update => absurd update notUpdate)

private theorem silent_effect : TurnEffect config world turn world.silent :=
  refusal_effect config world turn notUpdate (by simp)

private theorem answer_effect {action : AuctionAction} {errorCode : AuctionError}
    (h : errorCode ≠ .ok)
    : TurnEffect config world turn (world.answer action errorCode) :=
  refusal_effect config world turn notUpdate (by simpa using h)

omit notUpdate

theorem lowBidReplies_ne_ok {auction : AuctionEntry} {id price : Nat} {reply : CommandResult}
    (h : reply ∈ auction.lowBidReplies id price)
    : reply.errorCode ≠ .ok := by
  unfold AuctionEntry.lowBidReplies at h
  split at h
  · obtain rfl := List.mem_singleton.mp h
    simp
  · simp at h

/-- Past the ownership guards, a bid is refused, accepted or a buyout. -/
theorem bidOn_effect {house : AuctionHouses} {id player price money : Nat} {auction : AuctionEntry}
    (arrives : BidArrives config world turn house id player price money auction)
    : TurnEffect config world turn
        (world.bidOn config turn.characters house id auction player money price) := by
  have notUpdate : turn.request ≠ .update := by
    obtain ⟨account, creature, request, _⟩ := arrives.request
    simp [request]
  unfold AuctionWorld.bidOn
  by_cases increment : auction.refusesIncrement price = true
  · rw [if_pos increment]
    refine refusal_effect config world turn notUpdate (fun reply member => ?_)
    rcases List.mem_append.mp member with low | last
    · exact lowBidReplies_ne_ok low
    · obtain rfl := List.mem_singleton.mp last
      simp
  · rw [if_neg increment]
    by_cases enough : hasEnoughMoney money price = true
    · rw [if_neg (by simp [enough])]
      have affordable : price ≤ money := by simpa [hasEnoughMoney] using enough
      by_cases below : auction.belowBuyOut price = true
      · rw [if_pos below]
        exact .bid arrives (by simpa using increment) affordable below
      · rw [if_neg below]
        exact .boughtOut arrives affordable (by simpa using below)
    · rw [if_pos (by simp [enough])]
      exact refusal_effect config world turn notUpdate
        (fun reply member => lowBidReplies_ne_ok member)

theorem SellRefusal.reply_ne_ok (refusal : SellRefusal)
    : refusal.reply.errorCode ≠ .ok := by
  cases refusal <;> simp [SellRefusal.reply]

/-- Selling lists an offer that passed all checks, or changes nothing. -/
theorem sellItem_effect {player : Nat} {packet : AuctionSellItem} {creature : Option Creature}
    (running : world.auctionId ≤ lastAuctionId)
    (request : turn.request = .sellItem player packet creature)
    : TurnEffect config world turn
        (sellItem config turn.characters world turn.now player packet creature) := by
  have notUpdate : turn.request ≠ .update := by simp [request]
  unfold sellItem
  split
  · exact silent_effect config world turn notUpdate
  · cases purse : world.money.get? player with
    | none => exact silent_effect config world turn notUpdate
    | some money =>
        cases offered : world.checkOffer config player packet creature with
        | error refusal =>
            exact refusal_effect config world turn notUpdate (by simpa using refusal.reply_ne_ok)
        | ok offer =>
            simp only
            by_cases enough : hasEnoughMoney money (getAuctionDeposit config offer.houseEntry
              packet.expireTime offer.first.item offer.finalCount) = true
            · rw [if_neg (by simp [enough])]
              exact .listed
                { running := running, request := ⟨creature, request, offered⟩, purse := purse,
                  charged := rfl, enough := by simpa [hasEnoughMoney] using enough }
            · rw [if_pos (by simp [enough])]
              exact answer_effect config world turn notUpdate (by simp)

/-- A bid request reaches the price guards or changes nothing. -/
theorem placeBid_effect {player account id price : Nat} {creature : Option Creature}
    (running : world.auctionId ≤ lastAuctionId)
    (request : turn.request = .placeBid player account creature id price)
    : TurnEffect config world turn
        (placeBid config turn.characters world player account creature id price) := by
  have notUpdate : turn.request ≠ .update := by simp [request]
  unfold placeBid
  by_cases zero : id = 0 ∨ price = 0
  · rw [if_pos zero]
    exact silent_effect config world turn notUpdate
  · rw [if_neg zero]
    by_cases connected : turn.characters.connected player = true
    · rw [if_neg (by simp [connected])]
      cases purse : world.money.get? player with
      | none => exact silent_effect config world turn notUpdate
      | some money =>
          cases creature with
          | none => exact silent_effect config world turn notUpdate
          | some creature =>
              simp only
              cases found : world.getAuction (getAuctionsMap config creature) id with
              | none => exact answer_effect config world turn notUpdate (by simp)
              | some auction =>
                  simp only
                  by_cases owned : auction.ownedBy turn.characters player account = true
                  · rw [if_pos owned]
                    exact answer_effect config world turn notUpdate (by simp)
                  · rw [if_neg owned]
                    exact bidOn_effect config world turn
                      { running := running,
                        request := ⟨account, creature, request, rfl, by simpa using owned⟩,
                        nonzero := zero, connected := connected, purse := purse, found := found }
    · rw [if_pos (by simp [connected])]
      exact silent_effect config world turn notUpdate

/-- A cancel request removes the owner's auction or changes nothing. -/
theorem removeItem_effect {player id : Nat} {creature : Option Creature}
    (running : world.auctionId ≤ lastAuctionId)
    (request : turn.request = .removeItem player creature id)
    : TurnEffect config world turn
        (handleAuctionRemoveItem config turn.characters world player creature id) := by
  have notUpdate : turn.request ≠ .update := by simp [request]
  unfold handleAuctionRemoveItem
  by_cases connected : turn.characters.connected player = true
  · rw [if_neg (by simp [connected])]
    cases purse : world.money.get? player with
    | none => exact silent_effect config world turn notUpdate
    | some money =>
        cases creature with
        | none => exact silent_effect config world turn notUpdate
        | some creature =>
            simp only
            cases found : world.getAuction (getAuctionsMap config creature) id with
            | none => exact answer_effect config world turn notUpdate (by simp)
            | some auction =>
                simp only
                by_cases owner : auction.playerOwner = player
                · rw [if_neg (by simp [owner])]
                  cases item : world.getAuctionItem auction.itemGuid with
                  | none => exact answer_effect config world turn notUpdate (by simp)
                  | some stored =>
                      simp only
                      by_cases refused : (auction.bidder.isSome
                          && !hasEnoughMoney money (auction.getAuctionCut config)) = true
                      · rw [if_pos refused]
                        exact silent_effect config world turn notUpdate
                      · rw [if_neg refused]
                        exact .canceled
                          { running := running, request := ⟨creature, request, rfl⟩,
                            connected := connected, purse := purse, found := found,
                            owner := owner, item := Option.isSome_of_eq_some item,
                            enough := by
                              intro bid
                              simpa [bid, hasEnoughMoney] using refused }
                · rw [if_pos owner]
                  exact answer_effect config world turn notUpdate (by simp)
  · rw [if_pos (by simp [connected])]
    exact silent_effect config world turn notUpdate

/-- Every turn has one of the effects. -/
theorem handle_effect
    : TurnEffect config world turn (handle config world turn) := by
  unfold handle
  by_cases stopped : world.auctionId > lastAuctionId
  · rw [if_pos stopped]
    exact .nothing (by simp) (fun _ => stopped)
  · rw [if_neg stopped]
    have running := not_lt.mp stopped
    cases request : turn.request with
    | sellItem player packet creature => exact sellItem_effect config world turn running request
    | placeBid player account creature id price =>
        exact placeBid_effect config world turn running request
    | removeItem player creature id => exact removeItem_effect config world turn running request
    | update => exact .updated running request

variable {config : Config} {world : AuctionWorld} {turn : Turn} {house : AuctionHouses}
  {id player price money : Nat} {auction : AuctionEntry}

/-- A request that arrives is handled by the price guards. -/
theorem BidArrives.handle_eq
    (arrives : BidArrives config world turn house id player price money auction)
    : handle config world turn
      = world.bidOn config turn.characters house id auction player money price := by
  obtain ⟨account, creature, request, rfl, owned⟩ := arrives.request
  unfold handle placeBid
  rw [if_neg (not_lt.mpr arrives.running), request]
  simp only
  rw [if_neg arrives.nonzero, if_neg (by simp [arrives.connected]), arrives.purse]
  simp only
  rw [arrives.found]
  simp only
  rw [if_neg (by simp [owned])]

/-- A bid that passes the increment guard and the purse is taken, whatever was answered before. -/
theorem BidArrives.passes_eq
    (arrives : BidArrives config world turn house id player price money auction)
    (increment : auction.refusesIncrement price = false) (enough : price ≤ money)
    : handle config world turn
      = { world :=
            if auction.belowBuyOut price then
              world.acceptBid config turn.characters house id auction player price
            else world.buyOut config turn.characters house id auction player,
          replies := auction.lowBidReplies id price
            ++ [{ auctionID := id, action := .placeBid, errorCode := .ok }] } := by
  have afforded : hasEnoughMoney money price = true := by simpa [hasEnoughMoney] using enough
  rw [arrives.handle_eq]
  unfold AuctionWorld.bidOn
  rw [if_neg (by simp [increment]), if_neg (by simp [afforded])]
  split <;> rfl

/-- The increment guard does not look at a buyout. -/
theorem refusesIncrement_of_buyOut (below : auction.belowBuyOut price = false)
    : auction.refusesIncrement price = false := by
  unfold AuctionEntry.refusesIncrement
  rw [below, Bool.false_and]

/-- A cancel request that arrives cancels. -/
theorem CancelArrives.step_eq
    (arrives : CancelArrives config world turn house id player money auction)
    : step config world turn = world.cancel config turn.characters house id auction player := by
  obtain ⟨creature, request, rfl⟩ := arrives.request
  obtain ⟨item, stored⟩ := Option.isSome_iff_exists.mp arrives.item
  have stored' : world.getAuctionItem auction.itemGuid = some item := stored
  have afforded : (auction.bidder.isSome
      && !hasEnoughMoney money (auction.getAuctionCut config)) = false := by
    cases bid : auction.bidder.isSome with
    | false => rfl
    | true => simpa [hasEnoughMoney] using arrives.enough bid
  unfold step handle handleAuctionRemoveItem
  rw [if_neg (not_lt.mpr arrives.running), request]
  simp only
  rw [if_neg (by simp [arrives.connected]), arrives.purse]
  simp only
  rw [arrives.found]
  simp only
  rw [if_neg (by simp [arrives.owner]), stored']
  simp only
  rw [if_neg (by simp [afforded])]

end Inversion

end WarheadCore.Auction
