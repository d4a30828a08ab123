import WarheadCore.Auction.Soundness

/-! The law of bidding, and where PlaceBidTask::Execute departs from it.
A price under the starting bid is answered with an error and then handled like any other, so the
law holds exactly in the turns where the increment guard or the purse stops such a price.
-/

namespace WarheadCore.Auction

open Foundation Foundation.Runs WarheadCore.Player

/-- The law of one turn: what an accepted bid is worth, and that an error changes nothing. -/
structure BidLaw (config : Config) (world : AuctionWorld) (turn : Turn) : Prop where
  accepted : ∀ house id player price money auction,
    BidArrives config world turn house id player price money auction
      → { auctionID := id, action := .placeBid, errorCode := .ok }
          ∈ (handle config world turn).replies
      → (step config world turn).getAuction house id ≠ none
      → (step config world turn).getAuction house id = some (auction.withBid player price)
        ∧ auction.startBid ≤ price ∧ auction.bid < price
        ∧ auction.bid + auction.getAuctionOutBid ≤ price
        ∧ (auction.buyOut ≠ 0 → price < auction.buyOut)
  refused : (∃ reply ∈ (handle config world turn).replies, reply.errorCode ≠ .ok)
    → (step config world turn).auctions = world.auctions
      ∧ (step config world turn).money = world.money

def StartBidGuarded (config : Config) (world : AuctionWorld) (turn : Turn) : Prop :=
  ∀ house id player price money auction,
    BidArrives config world turn house id player price money auction
      → price < auction.startBid
      → auction.refusesIncrement price = true ∨ money < price

section Law

variable {config : Config} {world : AuctionWorld} {turn : Turn} {house : AuctionHouses}
  {id player price money : Nat} {auction : AuctionEntry}

/-- A bid that passes changes its auction. -/
private theorem changed_of_passes (sound : Sound world)
    (arrives : BidArrives config world turn house id player price money auction)
    (increment : auction.refusesIncrement price = false) (enough : price ≤ money)
    : (step config world turn).getAuction house id ≠ some auction := by
  unfold step
  rw [arrives.passes_eq increment enough]
  simp only
  split
  · rename_i below
    have ended := (arrives.bid_bounds sound increment enough below).1
    have step := (getAuctionOutBid_bounds (sound.bounds _ _ _ arrives.found).bid).1
    rw [arrives.acceptBid_eq sound increment enough below, getAuction_rebid arrives.found,
      if_pos ⟨rfl, rfl⟩]
    intro same
    have bid := congrArg AuctionEntry.bid (Option.some.inj same)
    change price = auction.bid at bid
    omega
  · rename_i below
    rw [arrives.buyOut_eq sound enough (by simpa using below), getAuction_settled,
      if_pos ⟨rfl, rfl⟩]
    simp

/-- A bid answered with success passed both guards. -/
private theorem passes_of_ok
    (arrives : BidArrives config world turn house id player price money auction)
    (ok : { auctionID := id, action := .placeBid, errorCode := .ok }
      ∈ (handle config world turn).replies)
    : auction.refusesIncrement price = false ∧ price ≤ money := by
  have notLow : ({ auctionID := id, action := .placeBid, errorCode := .ok } : CommandResult)
      ∉ auction.lowBidReplies id price := fun member => lowBidReplies_ne_ok member rfl
  rw [arrives.handle_eq] at ok
  unfold AuctionWorld.bidOn at ok
  by_cases increment : auction.refusesIncrement price = true
  · rw [if_pos increment] at ok
    simp [notLow] at ok
  · rw [if_neg increment] at ok
    by_cases enough : hasEnoughMoney money price = true
    · exact ⟨by simpa using increment, by simpa [hasEnoughMoney] using enough⟩
    · rw [if_pos (by simp [enough])] at ok
      exact absurd ok notLow

/-- An error beside a taken bid answers a price under the starting bid.
Witness: the increment guard stops a price that does not exceed the current bid, and a buyout
exceeds it.
-/
private theorem under_startBid_of_warned (ended : auction.bid < price) {reply : CommandResult}
    (member : reply ∈ auction.lowBidReplies id price
      ++ [{ auctionID := id, action := .placeBid, errorCode := .ok }])
    (error : reply.errorCode ≠ .ok)
    : price < auction.startBid := by
  rcases List.mem_append.mp member with low | last
  · unfold AuctionEntry.lowBidReplies at low
    split at low
    · rename_i cause
      omega
    · simp at low
  · obtain rfl := List.mem_singleton.mp last
    exact absurd rfl error

/-- The law of a turn holds exactly when the starting bid is guarded in it. -/
theorem bidLaw_iff_startBidGuarded (sound : Sound world)
    : BidLaw config world turn ↔ StartBidGuarded config world turn := by
  constructor
  · intro law house id player price money auction arrives low
    by_contra passes
    obtain ⟨increment, enough⟩ := not_or.mp passes
    have increment : auction.refusesIncrement price = false := by simpa using increment
    have enough : price ≤ money := not_lt.mp enough
    have changed := changed_of_passes sound arrives increment enough
    have warned : ∃ reply ∈ (handle config world turn).replies, reply.errorCode ≠ .ok := by
      refine ⟨{ auctionID := id, action := .placeBid, errorCode := .higherBid }, ?_, by simp⟩
      have replied : auction.lowBidReplies id price
          = [{ auctionID := id, action := .placeBid, errorCode := .higherBid }] :=
        if_pos (.inr low)
      rw [arrives.passes_eq increment enough, replied]
      simp
    have same := (law.refused warned).1
    have found := arrives.found
    unfold AuctionWorld.getAuction at changed found
    rw [same] at changed
    exact changed found
  · intro guarded
    constructor
    case accepted =>
      intro house id player price money auction arrives ok live
      obtain ⟨increment, enough⟩ := passes_of_ok arrives ok
      have start : auction.startBid ≤ price := by
        by_contra low
        rcases guarded _ _ _ _ _ _ arrives (not_le.mp low) with refused | poor
        · rw [increment] at refused
          simp at refused
        · omega
      unfold step at live ⊢
      rw [arrives.passes_eq increment enough] at live ⊢
      simp only at live ⊢
      split at live
      · rename_i below
        obtain ⟨ended, bounds⟩ := arrives.bid_bounds sound increment enough below
        have step := (getAuctionOutBid_bounds (sound.bounds _ _ _ arrives.found).bid).1
        rw [if_pos below, arrives.acceptBid_eq sound increment enough below,
          getAuction_rebid arrives.found, if_pos ⟨rfl, rfl⟩]
        exact ⟨rfl, start, by omega, ended, bounds.belowBuyOut⟩
      · rename_i below
        rw [arrives.buyOut_eq sound enough (by simpa using below), getAuction_settled,
          if_pos ⟨rfl, rfl⟩] at live
        exact absurd rfl live
    case refused =>
      rintro ⟨reply, member, error⟩
      have effect := handle_effect config world turn
      unfold step
      generalize handle config world turn = handled at effect member
      cases effect with
      | nothing refused stopped => exact ⟨rfl, rfl⟩
      | listed arrives =>
          obtain rfl := List.mem_singleton.mp member
          exact absurd rfl error
      | bid arrives increment enough below =>
          have ended := (arrives.bid_bounds sound increment enough below).1
          have step := (getAuctionOutBid_bounds (sound.bounds _ _ _ arrives.found).bid).1
          have low := under_startBid_of_warned (by omega) member error
          rcases guarded _ _ _ _ _ _ arrives low with refused | poor
          · rw [increment] at refused
            simp at refused
          · omega
      | boughtOut arrives enough below =>
          have ended := arrives.buyOut_bounds sound below
          have low := under_startBid_of_warned (by omega) member error
          rcases guarded _ _ _ _ _ _ arrives low with refused | poor
          · unfold AuctionEntry.refusesIncrement at refused
            rw [below] at refused
            simp at refused
          · omega
      | canceled arrives =>
          obtain rfl := List.mem_singleton.mp member
          exact absurd rfl error
      | updated running request => simp at member

end Law

-- Runs

/-- From empty houses, a run obeys the law of bidding in every turn exactly when the starting bid
is guarded in every turn.
-/
theorem bid_law_iff_start_bid_guarded (config : Config) (start : AuctionWorld)
    (opened : Opened start) (turns : List Turn)
    : EachStep (step config) (BidLaw config) start turns
      ↔ EachStep (step config) (StartBidGuarded config) start turns := by
  have preserved (world : AuctionWorld) (turn : Turn) (sound : Sound world) (_ : True)
      : Sound (step config world turn) := sound.step turn
  exact eachStep_congr_of_invariant preserved
    (fun world turn sound _ => bidLaw_iff_startBidGuarded sound) opened.sound
    (eachStep_of_forall (fun _ _ => trivial) start turns)

/-- A bid of the starting price, then one of the outbid step more. -/
theorem bid_law_iff_start_bid_guarded_applied
    : EachStep (step smallConfig) (BidLaw smallConfig) smallMarket
          [smallOffer 0, smallBid 2 100, smallBid 3 105]
        ↔ EachStep (step smallConfig) (StartBidGuarded smallConfig) smallMarket
          [smallOffer 0, smallBid 2 100, smallBid 3 105] :=
  bid_law_iff_start_bid_guarded smallConfig smallMarket smallMarket_opened _

/-- A first bid of one copper on a starting bid of a hundred is answered with an error and taken. -/
theorem first_bid_under_start_bid_is_taken
    : ¬ ∀ (config : Config) (start : AuctionWorld) (turns : List Turn), Opened start
        → EachStep (step config) (BidLaw config) start turns := by
  intro claim
  have law := (claim smallConfig smallMarket [smallOffer 0, smallBid 2 1] smallMarket_opened).2.1
  have warned : { auctionID := 1, action := .placeBid, errorCode := .higherBid }
      ∈ (handle smallConfig (step smallConfig smallMarket (smallOffer 0)) (smallBid 2 1)).replies := by
    decide +kernel
  have unchanged := (law.refused ⟨_, warned, by simp⟩).1
  have taken : (((step smallConfig (step smallConfig smallMarket (smallOffer 0))
      (smallBid 2 1)).auctions .neutral).get? 1).map AuctionEntry.bid = some 1 := by
    decide +kernel
  have unbid : (((step smallConfig smallMarket (smallOffer 0)).auctions .neutral).get? 1).map
      AuctionEntry.bid = some 0 := by
    decide +kernel
  rw [unchanged, unbid] at taken
  simp at taken

end WarheadCore.Auction
