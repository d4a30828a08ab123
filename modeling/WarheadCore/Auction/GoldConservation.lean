import WarheadCore.Auction.Soundness

/-! Where the gold of an auction goes.
The purses, the gold in mails, the escrowed bids and the held deposits add up to one amount, from
which the house takes its cuts and the deposits of unsold auctions. The one conversion that can
break this is the seller's profit, which wraps when the cut exceeds bid and deposit.
-/

namespace WarheadCore.Auction

open Foundation Foundation.Runs WarheadCore.Player

-- The ledger

def AuctionEntry.held (auction : AuctionEntry) : Int :=
  (if auction.bidder.isSome then auction.bid else 0 : Nat) + auction.deposit

def heldGold (auctions : AuctionHouses → Table Nat AuctionEntry) : Int :=
  (auctions .alliance).sum AuctionEntry.held + (auctions .horde).sum AuctionEntry.held
    + (auctions .neutral).sum AuctionEntry.held

def mailGold (mails : List AuctionMail) : Int := (mails.map (fun mail => (mail.money : Int))).sum

def purseGold (money : Table Nat Nat) : Int := money.sum (fun money => money)

def AuctionWorld.worth (world : AuctionWorld) : Int :=
  purseGold world.money + mailGold world.mails + heldGold world.auctions

@[simp] theorem mailGold_nil : mailGold [] = 0 := rfl

@[simp] theorem mailGold_append (first later : List AuctionMail)
    : mailGold (first ++ later) = mailGold first + mailGold later := by
  simp [mailGold]

/-- Changing one house changes what it holds. -/
theorem heldGold_update (auctions : AuctionHouses → Table Nat AuctionEntry)
    (house : AuctionHouses) (table : Table Nat AuctionEntry)
    : heldGold (Function.update auctions house table)
      = heldGold auctions - (auctions house).sum AuctionEntry.held
          + table.sum AuctionEntry.held := by
  unfold heldGold
  cases house <;> simp <;> omega

/-- A charge takes exactly its amount out of the purses. -/
theorem purseGold_charge {purses : Table Nat Nat} {player money amount : Nat}
    (purse : purses.get? player = some money) (enough : amount ≤ money)
    : purseGold (purses.modify player (fun money => money - amount))
      = purseGold purses - amount := by
  unfold purseGold
  rw [Table.sum_modify purse]
  omega

section Ledger

variable {config : Config} {characters : Characters} {world : AuctionWorld}
  {house : AuctionHouses} {id player price money : Nat} {auction : AuctionEntry}

/-- A bid moves gold from the purse into the auction, and the old bid into a mail. -/
theorem worth_rebid (found : world.getAuction house id = some auction)
    (purse : world.money.get? player = some money) (enough : auction.charged player price ≤ money)
    : (world.rebid config characters house id auction player price).worth
      = world.worth - auction.charged player price
          + mailGold (auction.refunds config characters id player)
          - auction.held + (auction.withBid player price).held := by
  unfold AuctionWorld.worth AuctionWorld.rebid
  simp only
  rw [purseGold_charge purse enough, mailGold_append, heldGold_update, Table.sum_modify found]
  omega

/-- A settlement takes the auction's gold out of the house; the notes say where it goes. -/
theorem worth_settled (found : world.getAuction house id = some auction)
    (purses : Table Nat Nat) (notes : List AuctionMail) {mail : AuctionMail}
    (noMoney : mail.money = 0)
    : (world.settled characters house id auction.itemGuid purses notes mail).worth
      = world.worth - purseGold world.money + purseGold purses + mailGold notes
          - auction.held := by
  have itemMail : mailGold (characters.delivered { mail with item := some auction.itemGuid }) = 0 := by
    unfold Characters.delivered mailGold
    split <;> simp [noMoney]
  unfold AuctionWorld.worth AuctionWorld.settled
  simp only
  rw [mailGold_append, mailGold_append, itemMail, heldGold_update, Table.sum_remove found]
  omega

/-- A listing moves the deposit from the purse into the auction. -/
theorem worth_listed (fresh : world.getAuction house world.auctionId = none) {item : Item}
    {deposit : Nat} {packet : AuctionSellItem} (new : AuctionWorld.NewAuction auction player deposit packet)
    (purse : world.money.get? player = some money) (enough : deposit ≤ money)
    (carried : Table Nat CarriedItem) (itemGuid : Nat)
    : (world.listed house auction item
          (world.money.modify player (fun money => money - deposit)) carried itemGuid).worth
      = world.worth := by
  have held : auction.held = deposit := by
    unfold AuctionEntry.held
    simp [new.bidder, new.deposit]
  unfold AuctionWorld.worth AuctionWorld.listed
  simp only
  rw [purseGold_charge purse enough, heldGold_update, Table.sum_emplace fresh, held]
  omega

/-- Whether a bid is a first one, a raise of the bidder's own or one over another's, it brings the
auction up to the price.
-/
theorem bid_balance (ended : auction.bid ≤ price)
    (present : ∀ bidder, auction.bidder = some bidder → characters.present bidder = true)
    : (auction.charged player price : Int)
      = mailGold (auction.refunds config characters id player) - auction.held
          + (auction.withBid player price).held := by
  unfold AuctionEntry.charged AuctionEntry.refunds AuctionEntry.held AuctionEntry.withBid
  cases bidder : auction.bidder with
  | none => simp
  | some oldBidder =>
      by_cases self : oldBidder = player
      · simp [self]
        omega
      · simp [self, Characters.delivered, mailGold, AuctionEntry.outbiddedMail,
          AuctionEntry.draft, present oldBidder bidder]

/-- Without a wrap, the seller is paid bid and deposit less the cut. -/
theorem profit_exact (bid : auction.bid ≤ maxMoneyAmount)
    (deposit : auction.deposit ≤ maxMoneyAmount)
    (covered : auction.getAuctionCut config ≤ auction.bid + auction.deposit)
    : (auction.profit config : Int)
      = auction.bid + auction.deposit - auction.getAuctionCut config := by
  unfold maxMoneyAmount at bid deposit
  exact toUInt32_cast (by omega) (by omega)

end Ledger

-- The law of one turn

/-- The auctions a turn sells, with the bid that wins. -/
inductive Wins (config : Config) (world : AuctionWorld) (turn : Turn) : Nat → AuctionEntry → Prop where
  | boughtOut {house : AuctionHouses} {id player price money : Nat} {auction : AuctionEntry}
      (arrives : BidArrives config world turn house id player price money auction)
      (enough : price ≤ money) (below : auction.belowBuyOut price = false)
      : Wins config world turn id (auction.withBid player auction.buyOut)
  | expired {house : AuctionHouses} {id bidder : Nat} {auction : AuctionEntry}
      (running : world.auctionId ≤ lastAuctionId) (request : turn.request = .update)
      (found : world.getAuction house id = some auction)
      (due : auction.expireTime ≤ turn.now + 60) (bidder : auction.bidder = some bidder)
      : Wins config world turn id auction

def removedAt (world after : AuctionWorld) (house : AuctionHouses) (id : Nat) : Option AuctionEntry :=
  match world.getAuction house id with
  | none => none
  | some auction => if (after.getAuction house id).isNone then some auction else none

/-- What the house takes when an auction expires: the cut of a sale, or the deposit. -/
def AuctionEntry.expiryTake (config : Config) (auction : AuctionEntry) : Int :=
  if auction.bidder.isSome then auction.getAuctionCut config else auction.deposit

/-- What the house takes when an auction is cancelled: the deposit, and the cut of its bid. -/
def AuctionEntry.cancelTake (config : Config) (auction : AuctionEntry) : Int :=
  auction.deposit + if auction.bidder.isSome then (auction.getAuctionCut config : Int) else 0

def houseTake (config : Config) (world : AuctionWorld) (turn : Turn) (after : AuctionWorld) : Int :=
  match turn.request with
  | .placeBid player _ (some creature) id _ =>
      match removedAt world after (getAuctionsMap config creature) id with
      | none => 0
      | some auction => (auction.withBid player auction.buyOut).getAuctionCut config
  | .removeItem _ (some creature) id =>
      match removedAt world after (getAuctionsMap config creature) id with
      | none => 0
      | some auction => auction.cancelTake config
  | .update =>
      if world.auctionId ≤ lastAuctionId then
        ((world.due turn.now).map (fun due => due.auction.expiryTake config)).sum
      else 0
  | _ => 0

def mailsAbout (id : Nat) (response : MailAuctionAnswers) (mails : List AuctionMail)
    : List AuctionMail :=
  mails.filter (fun mail => mail.auctionID = id ∧ mail.response = response)

/-- Between two worlds, one mail of a kind about an auction went out, with this money. -/
def Paid (before after : AuctionWorld) (id : Nat) (response : MailAuctionAnswers)
    (receiver : Nat) (amount : Int) : Prop :=
  ∃ mail : AuctionMail,
    mailsAbout id response after.mails = mailsAbout id response before.mails ++ [mail]
      ∧ mail.receiver = receiver ∧ (mail.money : Int) = amount

structure GoldLaw (config : Config) (world : AuctionWorld) (turn : Turn) : Prop where
  balance : (step config world turn).worth
    = world.worth - houseTake config world turn (step config world turn)
  seller : ∀ id auction, Wins config world turn id auction
    → Paid world (step config world turn) id .successful auction.playerOwner
        ((auction.bid : Int) + auction.deposit - auction.getAuctionCut config)
  displaced : ∀ house id player price money auction bidder,
    BidArrives config world turn house id player price money auction
      → auction.refusesIncrement price = false → price ≤ money
      → auction.bidder = some bidder → bidder ≠ player
      → Paid world (step config world turn) id .outbidded bidder auction.bid
  canceled : ∀ house id player money auction bidder,
    CancelArrives config world turn house id player money auction → auction.bidder = some bidder
      → Paid world (step config world turn) id .cancelledToBidder bidder auction.bid
  charged : ∀ house id player price money auction,
    BidArrives config world turn house id player price money auction
      → auction.refusesIncrement price = false → price ≤ money
      → ∃ left : Nat, (step config world turn).money.get? player = some left
        ∧ (left : Int) = money
            - ((if auction.belowBuyOut price then price else auction.buyOut : Nat)
              - (if auction.bidder = some player then auction.bid else 0 : Nat))
  outBid : ∀ house id auction, world.getAuction house id = some auction
    → (toUInt32 ((auction.bid : Int) + auction.getAuctionOutBid) : Int)
      = auction.bid + auction.getAuctionOutBid

def Peopled (world : AuctionWorld) (turn : Turn) : Prop :=
  ∀ house id auction, world.getAuction house id = some auction
    → turn.characters.present auction.playerOwner = true
      ∧ ∀ bidder, auction.bidder = some bidder → turn.characters.present bidder = true

def CutsCovered (config : Config) (world : AuctionWorld) (turn : Turn) : Prop :=
  ∀ id auction, Wins config world turn id auction
    → auction.getAuctionCut config ≤ auction.bid + auction.deposit

section Balance

variable {config : Config} {characters : Characters} {world : AuctionWorld} {turn : Turn}
  {house : AuctionHouses} {id player price money : Nat} {auction : AuctionEntry}

/-- A turn that changes nothing takes nothing. -/
private theorem houseTake_unchanged
    (stopped : turn.request = .update → lastAuctionId < world.auctionId)
    : houseTake config world turn world = 0 := by
  have kept (house : AuctionHouses) (id : Nat) : removedAt world world house id = none := by
    unfold removedAt
    cases found : world.getAuction house id <;> simp
  unfold houseTake
  split
  · rw [kept]
  · rw [kept]
  · rename_i request
    rw [if_neg (not_le.mpr (stopped request))]
  · rfl

private theorem houseTake_bid {after : AuctionWorld}
    (arrives : BidArrives config world turn house id player price money auction)
    : houseTake config world turn after
      = if (after.getAuction house id).isNone then
          ((auction.withBid player auction.buyOut).getAuctionCut config : Int)
        else 0 := by
  obtain ⟨account, creature, request, rfl, _⟩ := arrives.request
  unfold houseTake removedAt
  rw [request]
  simp only
  rw [arrives.found]
  by_cases removed : (after.getAuction (getAuctionsMap config creature) id).isNone = true
  · simp [removed]
  · simp [removed]

private theorem houseTake_cancel {after : AuctionWorld}
    (arrives : CancelArrives config world turn house id player money auction)
    (removed : after.getAuction house id = none)
    : houseTake config world turn after = auction.cancelTake config := by
  obtain ⟨creature, request, rfl⟩ := arrives.request
  unfold houseTake removedAt
  rw [request]
  simp only
  rw [arrives.found]
  simp [removed]

private theorem mailGold_delivered {mail : AuctionMail}
    (present : characters.present mail.receiver = true)
    : mailGold (characters.delivered mail) = mail.money := by
  unfold Characters.delivered mailGold
  simp [present]

/-- A bid under the buyout costs the players nothing. -/
private theorem balance_bid (sound : Sound world) (peopled : Peopled world turn)
    (arrives : BidArrives config world turn house id player price money auction)
    (increment : auction.refusesIncrement price = false) (enough : price ≤ money)
    (below : auction.belowBuyOut price = true)
    : (world.acceptBid config turn.characters house id auction player price).worth
      = world.worth := by
  have ended := (arrives.bid_bounds sound increment enough below).1
  have charged : auction.charged player price ≤ money := by
    unfold AuctionEntry.charged
    split <;> omega
  have moved := @bid_balance config turn.characters id player price auction (by omega)
    (peopled _ _ _ arrives.found).2
  rw [arrives.acceptBid_eq sound increment enough below,
    worth_rebid arrives.found arrives.purse charged]
  omega

/-- The seller's profit of a buyout. -/
private theorem profit_boughtOut (sound : Sound world) (covered : CutsCovered config world turn)
    (arrives : BidArrives config world turn house id player price money auction)
    (enough : price ≤ money) (below : auction.belowBuyOut price = false)
    : ((auction.withBid player auction.buyOut).profit config : Int)
      = auction.buyOut + auction.deposit
        - (auction.withBid player auction.buyOut).getAuctionCut config := by
  have ended := arrives.buyOut_bounds sound below
  have purse := sound.purses _ _ arrives.purse
  have bid : (auction.withBid player auction.buyOut).bid ≤ maxMoneyAmount :=
    le_trans ended.2.1 (le_trans enough purse)
  exact profit_exact bid (sound.bounds _ _ _ arrives.found).deposit
    (covered _ _ (.boughtOut arrives enough below))

/-- A buyout costs the players the cut. -/
private theorem balance_boughtOut (sound : Sound world) (peopled : Peopled world turn)
    (covered : CutsCovered config world turn)
    (arrives : BidArrives config world turn house id player price money auction)
    (enough : price ≤ money) (below : auction.belowBuyOut price = false)
    : (world.buyOut config turn.characters house id auction player).worth
      = world.worth - (auction.withBid player auction.buyOut).getAuctionCut config := by
  have ended := arrives.buyOut_bounds sound below
  have charged : auction.charged player auction.buyOut ≤ money := by
    unfold AuctionEntry.charged
    split <;> omega
  obtain ⟨owner, bidder⟩ := peopled _ _ _ arrives.found
  have moved := @bid_balance config turn.characters id player auction.buyOut auction (by omega) bidder
  have pending : mailGold (turn.characters.delivered
      ((auction.withBid player auction.buyOut).salePendingMail config id)) = 0 := by
    rw [mailGold_delivered owner]
    rfl
  have profit := profit_boughtOut sound covered arrives enough below
  have paid : mailGold (turn.characters.delivered
      ((auction.withBid player auction.buyOut).successfulMail config id))
      = (auction.withBid player auction.buyOut).profit config := mailGold_delivered owner
  have held : (auction.withBid player auction.buyOut).held
      = (auction.buyOut : Int) + auction.deposit := by
    simp [AuctionEntry.held, AuctionEntry.withBid]
  rw [arrives.buyOut_eq sound enough below, worth_settled arrives.found _ _ rfl,
    purseGold_charge arrives.purse charged, mailGold_append, mailGold_append, pending, paid, profit]
  omega

/-- A cancellation costs the owner the deposit, and the cut of a bid. -/
private theorem balance_canceled (sound : Sound world) (peopled : Peopled world turn)
    (arrives : CancelArrives config world turn house id player money auction)
    : (world.cancel config turn.characters house id auction player).worth
      = world.worth - auction.cancelTake config := by
  rw [arrives.cancel_eq sound, worth_settled arrives.found _ _ rfl]
  unfold AuctionEntry.cancelTake AuctionEntry.held
  cases bidder : auction.bidder with
  | none => simp
  | some oldBidder =>
      have refund : mailGold (turn.characters.delivered (auction.cancelledToBidderMail id oldBidder))
          = auction.bid :=
        mailGold_delivered ((peopled _ _ _ arrives.found).2 _ bidder)
      have enough := arrives.enough (by simp [bidder])
      simp only [refund, purseGold_charge arrives.purse enough]
      simp
      omega

/-- An expiry costs the players the cut, or the deposit of an unsold auction. -/
private theorem balance_expire (sound : Sound world)
    (found : world.getAuction house id = some auction)
    (owner : characters.present auction.playerOwner = true)
    (covered : auction.bidder.isSome = true
      → auction.getAuctionCut config ≤ auction.bid + auction.deposit)
    : (world.expire config characters ⟨house, id, auction⟩).worth
      = world.worth - auction.expiryTake config := by
  rw [sound.expire_eq found]
  unfold AuctionEntry.expiryTake
  cases bidder : auction.bidder with
  | none =>
      simp only
      rw [worth_settled found _ _ rfl]
      simp [AuctionEntry.held, bidder]
  | some winner =>
      have bounds := sound.bounds _ _ _ found
      have profit := profit_exact bounds.bid bounds.deposit (covered (by simp [bidder]))
      have paid : mailGold (characters.delivered (auction.successfulMail config id))
          = auction.profit config := mailGold_delivered owner
      simp only
      rw [worth_settled found _ _ rfl, paid, profit]
      simp [AuctionEntry.held, bidder]
      omega

private def DueCovered (config : Config) (characters : Characters) (due : AuctionWorld.DueAuction)
    : Prop :=
  characters.present due.auction.playerOwner = true
    ∧ (due.auction.bidder.isSome = true
      → due.auction.getAuctionCut config ≤ due.auction.bid + due.auction.deposit)

/-- An update costs the players what each due auction costs them. -/
private theorem balance_update (sound : Sound world) (peopled : Peopled world turn)
    (covered : CutsCovered config world turn) (running : world.auctionId ≤ lastAuctionId)
    (request : turn.request = .update)
    : (world.update config turn.characters turn.now).worth
      = world.worth - ((world.due turn.now).map (fun due => due.auction.expiryTake config)).sum := by
  have known : ∀ due ∈ world.due turn.now, DueCovered config turn.characters due := by
    intro due member
    obtain ⟨standing, expired⟩ := due_member member
    refine ⟨(peopled _ _ _ standing).1, fun bid => ?_⟩
    obtain ⟨bidder, found⟩ := Option.isSome_iff_exists.mp bid
    exact covered _ _ (.expired running request standing expired found)
  have preserved (world : AuctionWorld) (due : AuctionWorld.DueAuction) (sound : Sound world)
      (guard : world.Standing due ∧ DueCovered config turn.characters due)
      : Sound (world.expire config turn.characters due) := sound.expire guard.1
  have changed (world : AuctionWorld) (due : AuctionWorld.DueAuction) (sound : Sound world)
      (guard : world.Standing due ∧ DueCovered config turn.characters due)
      : -(world.expire config turn.characters due).worth
        = -world.worth + due.auction.expiryTake config := by
    have moved : (world.expire config turn.characters due).worth
        = world.worth - due.auction.expiryTake config :=
      balance_expire sound guard.1 guard.2.1 guard.2.2
    omega
  have total := @measure_run_of_invariant _ _ _ _ _ preserved (fun world => -world.worth)
    (fun _ due => due.auction.expiryTake config) changed _ _ sound
    ((sound.due_standing turn.now).and_forall known)
  rw [total_eq_sum] at total
  rw [AuctionWorld.update_eq]
  omega

/-- When every cut is covered, the players lose what the house takes and nothing else. -/
theorem balance_of_covered (sound : Sound world) (peopled : Peopled world turn)
    (covered : CutsCovered config world turn)
    : (step config world turn).worth
      = world.worth - houseTake config world turn (step config world turn) := by
  have effect := handle_effect config world turn
  unfold step
  generalize handle config world turn = handled at effect
  cases effect with
  | nothing refused stopped => simp [houseTake_unchanged stopped]
  | listed arrives =>
      obtain ⟨creature, request, offered⟩ := arrives.request
      have purse := sound.purses _ _ arrives.purse
      obtain ⟨auction, item, carried, itemGuid, equal, new, taken⟩ :=
        AuctionWorld.list_eq turn.now offered arrives.purse purse arrives.enough
      have nothing (after : AuctionWorld) : houseTake config world turn after = 0 := by
        unfold houseTake
        rw [request]
      simp only [equal]
      rw [worth_listed (sound.unissued _) new arrives.purse arrives.enough, nothing]
      omega
  | @bid house id player price money auction arrives increment enough below =>
      have live : (world.acceptBid config turn.characters house id auction player price).getAuction
          house id = some (auction.withBid player price) := by
        rw [arrives.acceptBid_eq sound increment enough below, getAuction_rebid arrives.found,
          if_pos ⟨rfl, rfl⟩]
      simp only
      rw [balance_bid sound peopled arrives increment enough below, houseTake_bid arrives, live]
      simp
  | @boughtOut house id player price money auction arrives enough below =>
      have removed : (world.buyOut config turn.characters house id auction player).getAuction house id
          = none := by
        rw [arrives.buyOut_eq sound enough below, getAuction_settled, if_pos ⟨rfl, rfl⟩]
      simp only
      rw [balance_boughtOut sound peopled covered arrives enough below, houseTake_bid arrives, removed]
      simp
  | @canceled house id player money auction arrives =>
      have removed : (world.cancel config turn.characters house id auction player).getAuction house id
          = none := by
        rw [arrives.cancel_eq sound, getAuction_settled, if_pos ⟨rfl, rfl⟩]
      simp only
      rw [balance_canceled sound peopled arrives, houseTake_cancel arrives removed]
  | updated running request =>
      have taken (after : AuctionWorld) : houseTake config world turn after
          = ((world.due turn.now).map (fun due => due.auction.expiryTake config)).sum := by
        unfold houseTake
        rw [request]
        exact if_pos running
      simp only
      rw [balance_update sound peopled covered running request, taken]

end Balance

-- Payments

section Payments

variable {config : Config} {characters : Characters} {world : AuctionWorld} {turn : Turn}
  {house : AuctionHouses} {id player price money : Nat} {auction : AuctionEntry}
  {response : MailAuctionAnswers}

theorem mailsAbout_append (id : Nat) (response : MailAuctionAnswers)
    (first later : List AuctionMail)
    : mailsAbout id response (first ++ later)
      = mailsAbout id response first ++ mailsAbout id response later :=
  List.filter_append _ _

/-- A delivered mail of the kind is found. -/
theorem mailsAbout_delivered {mail : AuctionMail} (about : mail.auctionID = id)
    (kind : mail.response = response) (present : characters.present mail.receiver = true)
    : mailsAbout id response (characters.delivered mail) = [mail] := by
  simp [mailsAbout, Characters.delivered, about, kind, present]

/-- A mail of another kind or about another auction is not. -/
theorem mailsAbout_delivered_other {mail : AuctionMail}
    (other : ¬ (mail.auctionID = id ∧ mail.response = response))
    : mailsAbout id response (characters.delivered mail) = [] := by
  unfold mailsAbout Characters.delivered
  split
  · simpa using other
  · rfl

theorem mailsAbout_refunds_other (other : response ≠ .outbidded)
    : mailsAbout id response (auction.refunds config characters id player) = [] := by
  unfold AuctionEntry.refunds
  split
  · rfl
  · split
    · rfl
    · exact mailsAbout_delivered_other (fun same => other same.2.symm)

theorem mailsAbout_refunds {bidder : Nat} (displaced : auction.bidder = some bidder)
    (different : bidder ≠ player) (present : characters.present bidder = true)
    : mailsAbout id .outbidded (auction.refunds config characters id player)
      = [auction.outbiddedMail config id bidder] := by
  unfold AuctionEntry.refunds
  simp only [displaced, if_neg different]
  exact mailsAbout_delivered rfl rfl present

/-- A settlement sends what its notes and its item mail say. -/
theorem mailsAbout_settled (guid : Nat) (purses : Table Nat Nat) (notes : List AuctionMail)
    (mail : AuctionMail) (other : Nat)
    : mailsAbout other response
          (world.settled characters house id guid purses notes mail).mails
      = mailsAbout other response world.mails ++ mailsAbout other response notes
          ++ mailsAbout other response (characters.delivered { mail with item := some guid }) := by
  unfold AuctionWorld.settled
  rw [mailsAbout_append, mailsAbout_append]

/-- A buyout pays the seller. -/
private theorem paid_boughtOut (sound : Sound world) (peopled : Peopled world turn)
    (covered : CutsCovered config world turn)
    (arrives : BidArrives config world turn house id player price money auction)
    (enough : price ≤ money) (below : auction.belowBuyOut price = false)
    : Paid world (world.buyOut config turn.characters house id auction player) id .successful
        auction.playerOwner
        ((auction.buyOut : Int) + auction.deposit
          - (auction.withBid player auction.buyOut).getAuctionCut config) := by
  have owner := (peopled _ _ _ arrives.found).1
  refine ⟨(auction.withBid player auction.buyOut).successfulMail config id, ?_, rfl,
    profit_boughtOut sound covered arrives enough below⟩
  have paid : mailsAbout id .successful (turn.characters.delivered
        ((auction.withBid player auction.buyOut).successfulMail config id))
      = [(auction.withBid player auction.buyOut).successfulMail config id] :=
    mailsAbout_delivered rfl rfl owner
  rw [arrives.buyOut_eq sound enough below, mailsAbout_settled, mailsAbout_append,
    mailsAbout_append, mailsAbout_refunds_other (by simp),
    mailsAbout_delivered_other (by simp [AuctionEntry.salePendingMail, AuctionEntry.draft]), paid,
    mailsAbout_delivered_other (by simp [AuctionEntry.wonMail, AuctionEntry.draft])]
  simp

/-- Expiring pays the seller of the auction that expires. -/
private theorem paid_expire (sound : Sound world)
    (found : world.getAuction house id = some auction)
    (owner : characters.present auction.playerOwner = true) {bidder : Nat}
    (sold : auction.bidder = some bidder)
    (covered : auction.getAuctionCut config ≤ auction.bid + auction.deposit)
    : Paid world (world.expire config characters ⟨house, id, auction⟩) id .successful
        auction.playerOwner
        ((auction.bid : Int) + auction.deposit - auction.getAuctionCut config) := by
  have bounds := sound.bounds _ _ _ found
  refine ⟨auction.successfulMail config id, ?_, rfl,
    profit_exact bounds.bid bounds.deposit covered⟩
  have paid : mailsAbout id .successful
      (characters.delivered (auction.successfulMail config id))
      = [auction.successfulMail config id] := mailsAbout_delivered rfl rfl owner
  rw [sound.expire_eq found, sold]
  simp only
  rw [mailsAbout_settled, paid,
    mailsAbout_delivered_other (by simp [AuctionEntry.wonMail, AuctionEntry.draft])]
  simp

/-- Expiring sends no mail about another auction. -/
private theorem mailsAbout_expire_other (sound : Sound world)
    (found : world.getAuction house id = some auction) {other : Nat} (different : other ≠ id)
    : mailsAbout other response (world.expire config characters ⟨house, id, auction⟩).mails
      = mailsAbout other response world.mails := by
  rw [sound.expire_eq found, mailsAbout_settled]
  cases auction.bidder with
  | none =>
      simp only
      rw [mailsAbout_delivered_other (fun same => different same.1.symm)]
      simp [mailsAbout]
  | some bidder =>
      simp only
      rw [mailsAbout_delivered_other (fun same => different same.1.symm),
        mailsAbout_delivered_other (fun same => different same.1.symm)]
      simp

/-- A run over due auctions sends no mail about an auction that is not among them. -/
private theorem mailsAbout_run_other {dues : List AuctionWorld.DueAuction} (sound : Sound world)
    (standing : EachStep (AuctionWorld.expire config characters)
      (fun world due => world.Standing due) world dues)
    {other : Nat} (different : ∀ due ∈ dues, other ≠ due.id)
    : mailsAbout other response (run (AuctionWorld.expire config characters) world dues).mails
      = mailsAbout other response world.mails := by
  induction dues generalizing world with
  | nil => rfl
  | cons due rest ih =>
      rw [run_cons, ih (sound.expire standing.1) standing.2
        (fun later member => different later (List.mem_cons_of_mem _ member))]
      exact mailsAbout_expire_other sound standing.1 (different due List.mem_cons_self)

/-- An update pays the seller of every auction that it sells, once. -/
private theorem paid_update (sound : Sound world) (peopled : Peopled world turn)
    (covered : CutsCovered config world turn) (running : world.auctionId ≤ lastAuctionId)
    (request : turn.request = .update) (found : world.getAuction house id = some auction)
    (due : auction.expireTime ≤ turn.now + 60) {bidder : Nat} (sold : auction.bidder = some bidder)
    : Paid world (world.update config turn.characters turn.now) id .successful
        auction.playerOwner
        ((auction.bid : Int) + auction.deposit - auction.getAuctionCut config) := by
  have owner := (peopled _ _ _ found).1
  have covers := covered _ _ (.expired running request found due sold)
  obtain ⟨first, later, split, before, after⟩ := sound.due_split found due
  have standing := @Sound.due_standing config turn.characters world sound turn.now
  rw [split] at standing
  obtain ⟨standingFirst, here, standingLater⟩ := eachStep_append.mp standing
  have preserved (world : AuctionWorld) (due : AuctionWorld.DueAuction) (sound : Sound world)
      (standing : world.Standing due)
      : Sound (world.expire config turn.characters due) := sound.expire standing
  have sound' := run_of_invariant preserved sound standingFirst
  obtain ⟨mail, sent, receiver, money⟩ :=
    @paid_expire config turn.characters _ house id auction sound' here owner bidder sold covers
  refine ⟨mail, ?_, receiver, money⟩
  rw [AuctionWorld.update_eq, split, run_append, run_cons,
    mailsAbout_run_other (sound'.expire here) standingLater after, sent,
    mailsAbout_run_other sound standingFirst before]

/-- A displaced bidder is refunded, by a bid and by a buyout. -/
private theorem paid_displaced (sound : Sound world) (peopled : Peopled world turn)
    (arrives : BidArrives config world turn house id player price money auction)
    (increment : auction.refusesIncrement price = false) (enough : price ≤ money) {bidder : Nat}
    (displaced : auction.bidder = some bidder) (different : bidder ≠ player)
    : Paid world (step config world turn) id .outbidded bidder auction.bid := by
  have present := (peopled _ _ _ arrives.found).2 _ displaced
  have refund := @mailsAbout_refunds config turn.characters id player auction bidder displaced
    different present
  refine ⟨auction.outbiddedMail config id bidder, ?_, rfl, rfl⟩
  unfold step
  rw [arrives.passes_eq increment enough]
  simp only
  split
  · rename_i below
    rw [arrives.acceptBid_eq sound increment enough below]
    unfold AuctionWorld.rebid
    rw [mailsAbout_append, refund]
  · rename_i below
    rw [arrives.buyOut_eq sound enough (by simpa using below), mailsAbout_settled,
      mailsAbout_append, mailsAbout_append, refund,
      mailsAbout_delivered_other (by simp [AuctionEntry.salePendingMail, AuctionEntry.draft]),
      mailsAbout_delivered_other (by simp [AuctionEntry.successfulMail, AuctionEntry.draft]),
      mailsAbout_delivered_other (by simp [AuctionEntry.wonMail, AuctionEntry.draft])]
    simp

/-- A bidder is refunded when the owner cancels. -/
private theorem paid_canceled (sound : Sound world) (peopled : Peopled world turn)
    (arrives : CancelArrives config world turn house id player money auction) {bidder : Nat}
    (bid : auction.bidder = some bidder)
    : Paid world (step config world turn) id .cancelledToBidder bidder auction.bid := by
  have present := (peopled _ _ _ arrives.found).2 _ bid
  have refund : mailsAbout id .cancelledToBidder
      (turn.characters.delivered (auction.cancelledToBidderMail id bidder))
      = [auction.cancelledToBidderMail id bidder] := mailsAbout_delivered rfl rfl present
  refine ⟨auction.cancelledToBidderMail id bidder, ?_, rfl, rfl⟩
  rw [arrives.step_eq, arrives.cancel_eq sound, mailsAbout_settled, bid]
  simp only
  rw [refund, mailsAbout_delivered_other (by simp [AuctionEntry.canceledMail, AuctionEntry.draft])]
  simp

/-- A bid takes its price, less the bidder's own bid that it replaces. -/
private theorem charged_bid (sound : Sound world)
    (arrives : BidArrives config world turn house id player price money auction)
    (increment : auction.refusesIncrement price = false) (enough : price ≤ money)
    : ∃ left : Nat, (step config world turn).money.get? player = some left
        ∧ (left : Int) = money
            - ((if auction.belowBuyOut price then price else auction.buyOut : Nat)
              - (if auction.bidder = some player then auction.bid else 0 : Nat)) := by
  have amount (price : Nat) (ended : auction.bid ≤ price) (enough : price ≤ money)
      : ((money - auction.charged player price : Nat) : Int)
        = money - ((price : Int) - (if auction.bidder = some player then auction.bid else 0 : Nat)) := by
    unfold AuctionEntry.charged
    split <;> omega
  unfold step
  rw [arrives.passes_eq increment enough]
  simp only
  by_cases below : auction.belowBuyOut price = true
  · have ended := (arrives.bid_bounds sound increment enough below).1
    rw [if_pos below, if_pos below, arrives.acceptBid_eq sound increment enough below]
    refine ⟨money - auction.charged player price, ?_, amount price (by omega) enough⟩
    change (world.money.modify player _).get? player = _
    rw [Table.get?_modify_self, arrives.purse]
    rfl
  · have ended := arrives.buyOut_bounds sound (by simpa using below)
    rw [if_neg below, if_neg below, arrives.buyOut_eq sound enough (by simpa using below)]
    refine ⟨money - auction.charged player auction.buyOut, ?_,
      amount auction.buyOut (by omega) (by omega)⟩
    change (world.money.modify player _).get? player = _
    rw [Table.get?_modify_self, arrives.purse]
    rfl

end Payments

-- Runs

/-- While all owners and bidders exist, a turn obeys the law of gold exactly when it sells nothing
whose cut exceeds bid and deposit.
-/
theorem goldLaw_iff_cutsCovered {config : Config} {world : AuctionWorld} {turn : Turn}
    (sound : Sound world) (peopled : Peopled world turn)
    : GoldLaw config world turn ↔ CutsCovered config world turn := by
  constructor
  · intro law id auction wins
    obtain ⟨mail, _, _, money⟩ := law.seller id auction wins
    omega
  · intro covered
    constructor
    case balance => exact balance_of_covered sound peopled covered
    case seller =>
      intro id auction wins
      cases wins with
      | boughtOut arrives enough below =>
          have paid := paid_boughtOut sound peopled covered arrives enough below
          unfold step
          rw [arrives.passes_eq (refusesIncrement_of_buyOut below) enough]
          simp only [below]
          exact paid
      | expired running request found due sold =>
          have updated : step config world turn
              = world.update config turn.characters turn.now := by
            unfold step handle
            rw [if_neg (not_lt.mpr running), request]
            rfl
          rw [updated]
          exact paid_update sound peopled covered running request found due sold
    case displaced =>
      intro house id player price money auction bidder arrives increment enough displaced different
      exact paid_displaced sound peopled arrives increment enough displaced different
    case canceled =>
      intro house id player money auction bidder arrives bid
      exact paid_canceled sound peopled arrives bid
    case charged =>
      intro house id player price money auction arrives increment enough
      exact charged_bid sound arrives increment enough
    case outBid =>
      intro house id auction found
      rw [outBid_exact (sound.bounds _ _ _ found).bid]
      rfl

/-- From empty houses, a run whose owners and bidders exist obeys the law of gold in every turn
exactly when every cut it takes is covered.
-/
theorem gold_is_conserved_iff_cuts_covered (config : Config) (start : AuctionWorld)
    (opened : Opened start) (turns : List Turn) (peopled : EachStep (step config) Peopled start turns)
    : EachStep (step config) (GoldLaw config) start turns
      ↔ EachStep (step config) (CutsCovered config) start turns := by
  have preserved (world : AuctionWorld) (turn : Turn) (sound : Sound world)
      (_ : Peopled world turn) : Sound (step config world turn) := sound.step turn
  exact eachStep_congr_of_invariant preserved
    (fun world turn sound peopled => goldLaw_iff_cutsCovered sound peopled) opened.sound peopled

theorem everyone_peoples (world : AuctionWorld) {turn : Turn} (h : turn.characters = everyone)
    : Peopled world turn := by
  intro house id auction found
  rw [h]
  exact ⟨rfl, fun _ _ => rfl⟩

/-- A bid, a raise by another player and a buyout by the first one. -/
theorem gold_is_conserved_iff_cuts_covered_applied
    : EachStep (step smallConfig) (GoldLaw smallConfig) smallMarket
          [smallOffer 1000, smallBid 2 100, smallBid 3 200, smallBid 2 1000]
        ↔ EachStep (step smallConfig) (CutsCovered smallConfig) smallMarket
          [smallOffer 1000, smallBid 2 100, smallBid 3 200, smallBid 2 1000] :=
  gold_is_conserved_iff_cuts_covered smallConfig smallMarket smallMarket_opened _
    ⟨everyone_peoples _ rfl, everyone_peoples _ rfl, everyone_peoples _ rfl,
      everyone_peoples _ rfl, trivial⟩

def greedyConfig : Config := { smallConfig with rateAuctionCut := 30 }

/-- With the cut rate at thirty, the cut of a buyout at 1000 is 1500, and the seller's profit wraps. -/
theorem profit_under_cut_wraps
    : ¬ ∀ (config : Config) (start : AuctionWorld) (turns : List Turn), Opened start
        → EachStep (step config) Peopled start turns
        → EachStep (step config) (GoldLaw config) start turns := by
  intro claim
  have law := (claim greedyConfig smallMarket
    [smallOffer 1000, smallBid 2 1000] smallMarket_opened
    ⟨everyone_peoples _ rfl, everyone_peoples _ rfl, trivial⟩).2.1
  have listed : ((step greedyConfig smallMarket
      (smallOffer 1000)).getAuction .neutral 1).map
        (fun auction => (auction.belowBuyOut 1000, auction.ownedBy everyone 2 2,
          (auction.buyOut, auction.deposit,
            (auction.withBid 2 auction.buyOut).getAuctionCut
              greedyConfig)))
      = some (false, false, 1000, 100, 1500) := by
    decide +kernel
  have purse : (step greedyConfig smallMarket
      (smallOffer 1000)).money.get? 2 = some 10000 := by
    decide +kernel
  have running : (step greedyConfig smallMarket
      (smallOffer 1000)).auctionId ≤ lastAuctionId := by
    decide +kernel
  obtain ⟨auction, found, facts⟩ := Option.map_eq_some_iff.mp listed
  simp only [Prod.mk.injEq] at facts
  obtain ⟨below, owned, buyOut, deposit, cut⟩ := facts
  obtain ⟨mail, _, _, money⟩ := law.seller 1 _ (.boughtOut
    { running := running
      request := ⟨2, { faction := none }, rfl, rfl, owned⟩
      nonzero := by decide
      connected := rfl
      purse := purse
      found := found } (by decide) below)
  change (mail.money : Int) = (auction.buyOut : Int) + auction.deposit - _ at money
  omega

end WarheadCore.Auction
