import WarheadCore.Auction.Changes

/-! The invariant of the auction houses, kept by every turn.
It bounds every amount, so that no conversion of the source changes one, and it keeps the house
maps, the item map and the bags apart, so that every item is in exactly one place.
-/

namespace WarheadCore.Auction

open Foundation Foundation.Runs WarheadCore.Player

-- The outbid step

/-- The percentage of an amount under the money cap stays far under the 32-bit range.
Witness: every rounding is monotone, and it fixes the bounds, which have few significant bits.
-/
theorem calculatePct_le {bid : Nat} (bounded : bid ≤ maxMoneyAmount)
    : calculatePct bid 5 ≤ 0x8000000 := by
  unfold maxMoneyAmount at bounded
  have base : (bid : ℚ) ≤ (1 : Nat) * 2 ^ (31 : Int) := by
    have cast : (bid : ℚ) ≤ 0x80000000 := by exact_mod_cast (by omega : bid ≤ 0x80000000)
    norm_num
    linarith
  have base' := roundBinary32_le_of_bits (Nat.cast_nonneg bid) (by norm_num) (by norm_num) base
  have baseNonneg := roundBinary32_nonneg (Nat.cast_nonneg bid : (0 : ℚ) ≤ bid)
  have five : roundBinary32 ((5 : Nat) : ℚ) = 5 := by
    simpa using @roundBinary32_of_bits 5 0 (by norm_num) (by norm_num)
  have product : roundBinary32 (bid : ℚ) * 5 ≤ (5 : Nat) * 2 ^ (31 : Int) := by
    norm_num at base' ⊢
    linarith
  have productNonneg : 0 ≤ roundBinary32 (bid : ℚ) * 5 := mul_nonneg baseNonneg (by norm_num)
  have product' := roundBinary32_le_of_bits productNonneg (by norm_num) (by norm_num) product
  have quotientNonneg : 0 ≤ roundBinary32 (roundBinary32 (bid : ℚ) * 5) / 100 :=
    div_nonneg (roundBinary32_nonneg productNonneg) (by norm_num)
  have quotient : roundBinary32 (roundBinary32 (bid : ℚ) * 5) / 100 ≤ (1 : Nat) * 2 ^ (27 : Int) := by
    norm_num at product' ⊢
    linarith
  have quotient' := roundBinary32_le_of_bits quotientNonneg (by norm_num) (by norm_num) quotient
  unfold calculatePct
  rw [five]
  refine floatToUInt32_le (roundBinary32_nonneg quotientNonneg) ?_ (by norm_num)
  norm_num at quotient' ⊢
  exact quotient'

/-- The outbid step of a bid under the money cap. -/
theorem getAuctionOutBid_bounds {auction : AuctionEntry} (bounded : auction.bid ≤ maxMoneyAmount)
    : 0 < auction.getAuctionOutBid ∧ auction.getAuctionOutBid ≤ 0x8000000 := by
  have percent := calculatePct_le bounded
  unfold AuctionEntry.getAuctionOutBid
  split
  · exact ⟨by omega, percent⟩
  · exact ⟨by omega, by omega⟩

/-- The smallest accepted next bid does not wrap. -/
theorem outBid_exact {auction : AuctionEntry} (bounded : auction.bid ≤ maxMoneyAmount)
    : toUInt32 ((auction.bid : Int) + auction.getAuctionOutBid)
      = auction.bid + auction.getAuctionOutBid := by
  have step := getAuctionOutBid_bounds bounded
  unfold maxMoneyAmount at bounded
  exact_mod_cast toUInt32_of_lt (by omega)

-- The invariant

structure AuctionEntry.InBounds (auction : AuctionEntry) : Prop where
  bid : auction.bid ≤ maxMoneyAmount
  deposit : auction.deposit ≤ maxMoneyAmount
  belowBuyOut : auction.buyOut ≠ 0 → auction.bid < auction.buyOut

def AuctionWorld.Gone (world : AuctionWorld) (guid : Nat) : Prop :=
  world.carried.get? guid = none ∧ world.items.get? guid = none ∧ guid < world.itemGuid

structure Sound (world : AuctionWorld) : Prop where
  purses : ∀ player money, world.money.get? player = some money → money ≤ maxMoneyAmount
  bounds : ∀ house id auction, world.getAuction house id = some auction → auction.InBounds
  issued : ∀ house id auction, world.getAuction house id = some auction → id < world.auctionId
  oneHouse : ∀ house house' id auction auction', world.getAuction house id = some auction
    → world.getAuction house' id = some auction' → house = house'
  oneAuction : ∀ house house' id id' auction auction', world.getAuction house id = some auction
    → world.getAuction house' id' = some auction' → auction.itemGuid = auction'.itemGuid → id = id'
  resolved : ∀ house id auction, world.getAuction house id = some auction
    → (world.items.get? auction.itemGuid).isSome = true
  auctioned : ∀ guid item, world.items.get? guid = some item
    → guid < world.itemGuid
      ∧ ∃ house id auction, world.getAuction house id = some auction ∧ auction.itemGuid = guid
  inBags : ∀ guid stored, world.carried.get? guid = some stored
    → guid < world.itemGuid ∧ world.items.get? guid = none
  mailed : ∀ mail ∈ world.mails, ∀ guid, mail.item = some guid → world.Gone guid
  deleted : ∀ guid ∈ world.deletedItems, world.Gone guid

-- Live auctions after each update

section Updates

variable {config : Config} {characters : Characters} {world : AuctionWorld}
  {house : AuctionHouses} {id player price money : Nat} {auction : AuctionEntry}

theorem getAuction_rebid (found : world.getAuction house id = some auction)
    (house' : AuctionHouses) (id' : Nat)
    : (world.rebid config characters house id auction player price).getAuction house' id'
      = if house' = house ∧ id' = id then some (auction.withBid player price)
        else world.getAuction house' id' := by
  unfold AuctionWorld.getAuction AuctionWorld.rebid at *
  by_cases here : house' = house
  · subst here
    simp only [Function.update_self, true_and, Table.get?_modify]
    split
    · rename_i same
      rw [same, found]
      rfl
    · rfl
  · simp [here]

theorem getAuction_settled (guid : Nat) (purses : Table Nat Nat) (notes : List AuctionMail)
    (mail : AuctionMail) (house' : AuctionHouses) (id' : Nat)
    : (world.settled characters house id guid purses notes mail).getAuction house' id'
      = if house' = house ∧ id' = id then none else world.getAuction house' id' := by
  unfold AuctionWorld.getAuction AuctionWorld.settled
  by_cases here : house' = house
  · subst here
    simp only [Function.update_self, true_and, Table.get?_remove]
  · simp [here]

theorem getAuction_listed (fresh : world.getAuction house world.auctionId = none) (item : Item)
    (purses : Table Nat Nat) (carried : Table Nat CarriedItem) (itemGuid : Nat)
    (house' : AuctionHouses) (id' : Nat)
    : (world.listed house auction item purses carried itemGuid).getAuction house' id'
      = if house' = house ∧ id' = world.auctionId then some auction
        else world.getAuction house' id' := by
  unfold AuctionWorld.getAuction AuctionWorld.listed at *
  by_cases here : house' = house
  · subst here
    simp only [Function.update_self, true_and, Table.get?_emplace, fresh, Option.getD_none]
  · simp [here]

/-- The mails about money carry no item. -/
theorem refunds_item {mail : AuctionMail}
    (member : mail ∈ auction.refunds config characters id player)
    : mail.item = none := by
  unfold AuctionEntry.refunds Characters.delivered at member
  repeat' split at member
  all_goals first
    | exact absurd member (List.not_mem_nil)
    | exact List.mem_singleton.mp member ▸ rfl

/-- A purse after a charge is no larger than before. -/
theorem charged_purses (sound : Sound world) (amount : Nat)
    : ∀ other money, (world.money.modify player (fun money => money - amount)).get? other = some money
        → money ≤ maxMoneyAmount := by
  intro other money found
  rw [Table.get?_modify] at found
  split at found
  · obtain ⟨before, stored, rfl⟩ := Option.map_eq_some_iff.mp found
    have bounded := sound.purses _ _ stored
    omega
  · exact sound.purses _ _ found

/-- A bid within bounds keeps the invariant. -/
theorem Sound.rebid (sound : Sound world) (found : world.getAuction house id = some auction)
    (bounds : (auction.withBid player price).InBounds)
    : Sound (world.rebid config characters house id auction player price) := by
  have live := fun house' id' =>
    @getAuction_rebid config characters world house id player price auction found house' id'
  have before (house' : AuctionHouses) (id' : Nat) (auction' : AuctionEntry)
      (found' : (world.rebid config characters house id auction player price).getAuction house' id'
        = some auction')
      : ∃ old, world.getAuction house' id' = some old ∧ auction'.itemGuid = old.itemGuid
          ∧ auction'.InBounds := by
    rw [live] at found'
    split at found'
    · rename_i here
      obtain rfl := Option.some.inj found'
      rw [here.1, here.2]
      exact ⟨auction, found, rfl, bounds⟩
    · exact ⟨auction', found', rfl, sound.bounds _ _ _ found'⟩
  have after (house' : AuctionHouses) (id' : Nat) (old : AuctionEntry)
      (found' : world.getAuction house' id' = some old)
      : ∃ auction', (world.rebid config characters house id auction player price).getAuction house' id'
          = some auction' ∧ auction'.itemGuid = old.itemGuid := by
    rw [live]
    split
    · rename_i here
      rw [here.1, here.2, found] at found'
      obtain rfl := Option.some.inj found'
      exact ⟨_, rfl, rfl⟩
    · exact ⟨old, found', rfl⟩
  exact
    { purses := charged_purses sound _
      bounds := by
        intro house' id' auction' found'
        obtain ⟨old, _, _, inBounds⟩ := before _ _ _ found'
        exact inBounds
      issued := by
        intro house' id' auction' found'
        obtain ⟨old, stored, _, _⟩ := before _ _ _ found'
        exact sound.issued _ _ _ stored
      oneHouse := by
        intro house' other id' auction' auction'' found' found''
        obtain ⟨old, stored, _, _⟩ := before _ _ _ found'
        obtain ⟨old', stored', _, _⟩ := before _ _ _ found''
        exact sound.oneHouse _ _ _ _ _ stored stored'
      oneAuction := by
        intro house' other id' otherId auction' auction'' found' found'' same
        obtain ⟨old, stored, guid, _⟩ := before _ _ _ found'
        obtain ⟨old', stored', guid', _⟩ := before _ _ _ found''
        exact sound.oneAuction _ _ _ _ _ _ stored stored' (by rw [← guid, ← guid', same])
      resolved := by
        intro house' id' auction' found'
        obtain ⟨old, stored, guid, _⟩ := before _ _ _ found'
        rw [guid]
        exact sound.resolved _ _ _ stored
      auctioned := by
        intro guid item stored
        obtain ⟨generated, house', id', old, found', same⟩ := sound.auctioned guid item stored
        obtain ⟨auction', found'', guid'⟩ := after _ _ _ found'
        exact ⟨generated, house', id', auction', found'', guid'.trans same⟩
      inBags := sound.inBags
      mailed := by
        intro mail member guid carries
        rcases List.mem_append.mp member with old | new
        · exact sound.mailed mail old guid carries
        · rw [(refunds_item new)] at carries
          simp at carries
      deleted := sound.deleted }

/-- The item of a live auction is in no bag. -/
theorem Sound.notInBags (sound : Sound world) (found : world.getAuction house id = some auction)
    : world.carried.get? auction.itemGuid = none ∧ auction.itemGuid < world.itemGuid := by
  obtain ⟨item, stored⟩ := Option.isSome_iff_exists.mp (sound.resolved _ _ _ found)
  refine ⟨?_, (sound.auctioned _ _ stored).1⟩
  cases carried : world.carried.get? auction.itemGuid with
  | none => rfl
  | some inBag =>
      have absent := (sound.inBags _ _ carried).2
      rw [stored] at absent
      simp at absent

/-- An item that is gone stays gone when an auction is settled. -/
theorem gone_settled {guid : Nat} (gone : world.Gone guid) (itemGuid : Nat)
    (purses : Table Nat Nat) (notes : List AuctionMail) (mail : AuctionMail)
    : (world.settled characters house id itemGuid purses notes mail).Gone guid := by
  refine ⟨gone.1, ?_, gone.2.2⟩
  change (world.items.remove itemGuid).get? guid = none
  rw [Table.get?_remove]
  split
  · rfl
  · exact gone.2.1

/-- Settling a live auction keeps the invariant.
Witness: its item was in the item map alone, and leaves it for a mail or for deletion.
-/
theorem Sound.settled (sound : Sound world) (found : world.getAuction house id = some auction)
    {purses : Table Nat Nat} {notes : List AuctionMail} {mail : AuctionMail}
    (bounded : ∀ player money, purses.get? player = some money → money ≤ maxMoneyAmount)
    (money : ∀ note ∈ notes, note.item = none)
    : Sound (world.settled characters house id auction.itemGuid purses notes mail) := by
  have live := fun house' id' => @getAuction_settled characters world house id auction.itemGuid
    purses notes mail house' id'
  have before (house' : AuctionHouses) (id' : Nat) (auction' : AuctionEntry)
      (found' : (world.settled characters house id auction.itemGuid purses notes mail).getAuction
        house' id' = some auction')
      : world.getAuction house' id' = some auction' ∧ ¬ (house' = house ∧ id' = id) := by
    rw [live] at found'
    split at found'
    · simp at found'
    · rename_i elsewhere
      exact ⟨found', elsewhere⟩
  have other (house' : AuctionHouses) (id' : Nat) (auction' : AuctionEntry)
      (found' : world.getAuction house' id' = some auction') (elsewhere : ¬ (house' = house ∧ id' = id))
      : auction'.itemGuid ≠ auction.itemGuid := by
    intro same
    obtain rfl := sound.oneAuction _ _ _ _ _ _ found' found same
    exact elsewhere ⟨sound.oneHouse _ _ _ _ _ found' found, rfl⟩
  have itemGone : (world.settled characters house id auction.itemGuid purses notes mail).Gone
      auction.itemGuid :=
    ⟨(sound.notInBags found).1, Table.get?_remove_self _ _, (sound.notInBags found).2⟩
  exact
    { purses := bounded
      bounds := fun house' id' auction' found' =>
        sound.bounds _ _ _ (before _ _ _ found').1
      issued := fun house' id' auction' found' =>
        sound.issued _ _ _ (before _ _ _ found').1
      oneHouse := fun house' other id' auction' auction'' found' found'' =>
        sound.oneHouse _ _ _ _ _ (before _ _ _ found').1 (before _ _ _ found'').1
      oneAuction := fun house' other id' otherId auction' auction'' found' found'' =>
        sound.oneAuction _ _ _ _ _ _ (before _ _ _ found').1 (before _ _ _ found'').1
      resolved := by
        intro house' id' auction' found'
        obtain ⟨stored, elsewhere⟩ := before _ _ _ found'
        change ((world.items.remove auction.itemGuid).get? auction'.itemGuid).isSome = true
        rw [Table.get?_remove_of_ne _ (other _ _ _ stored elsewhere)]
        exact sound.resolved _ _ _ stored
      auctioned := by
        intro guid item stored
        change (world.items.remove auction.itemGuid).get? guid = some item at stored
        rw [Table.get?_remove] at stored
        split at stored
        · simp at stored
        · rename_i different
          obtain ⟨generated, house', id', auction', found', same⟩ := sound.auctioned guid item stored
          refine ⟨generated, house', id', auction', ?_, same⟩
          rw [live, if_neg, found']
          rintro ⟨rfl, rfl⟩
          rw [found] at found'
          obtain rfl := Option.some.inj found'
          exact different same.symm
      inBags := by
        intro guid stored inBag
        obtain ⟨generated, absent⟩ := sound.inBags guid stored inBag
        refine ⟨generated, ?_⟩
        change (world.items.remove auction.itemGuid).get? guid = none
        rw [Table.get?_remove]
        split
        · rfl
        · exact absent
      mailed := by
        intro sent member guid carries
        rcases List.mem_append.mp member with earlier | new
        · rcases List.mem_append.mp earlier with old | note
          · exact gone_settled (sound.mailed sent old guid carries) _ _ _ _
          · rw [money sent note] at carries
            simp at carries
        · unfold Characters.delivered at new
          split at new
          · obtain rfl := List.mem_singleton.mp new
            obtain rfl := Option.some.inj carries
            exact itemGone
          · simp at new
      deleted := by
        intro guid member
        rcases List.mem_append.mp member with old | new
        · exact gone_settled (sound.deleted guid old) _ _ _ _
        · split at new
          · simp at new
          · obtain rfl := List.mem_singleton.mp new
            exact itemGone }

/-- The next id is not in use. -/
theorem Sound.unissued (sound : Sound world) (house : AuctionHouses)
    : world.getAuction house world.auctionId = none := by
  cases found : world.getAuction house world.auctionId with
  | none => rfl
  | some auction => exact absurd (sound.issued _ _ _ found) (lt_irrefl _)

/-- The item of a listing is in no map before, nor has it ever left one. -/
private structure FreshItem (world : AuctionWorld) (carried : Table Nat CarriedItem)
    (itemGuid guid : Nat) : Prop where
  absent : world.items.get? guid = none
  out : carried.get? guid = none
  below : guid < itemGuid
  grows : world.itemGuid ≤ itemGuid
  unused : ∀ gone, world.Gone gone → gone ≠ guid

private theorem Sound.freshItem (sound : Sound world) {carried : Table Nat CarriedItem}
    {itemGuid guid : Nat} (taken : AuctionWorld.TakenFromBags world carried itemGuid guid)
    : FreshItem world carried itemGuid guid := by
  rcases taken.source with ⟨inBag, out, absent, same⟩ | ⟨generated, next⟩
  · obtain ⟨stored, found⟩ := Option.isSome_iff_exists.mp inBag
    refine ⟨absent, out, ?_, le_of_eq same.symm, ?_⟩
    · rw [same]
      exact (sound.inBags _ _ found).1
    · rintro gone isGone rfl
      rw [isGone.1] at found
      simp at found
  · refine ⟨?_, ?_, by omega, by omega, ?_⟩
    · cases found : world.items.get? guid with
      | none => rfl
      | some stored => exact absurd (sound.auctioned _ _ found).1 (by omega)
    · cases found : carried.get? guid with
      | none => rfl
      | some stored =>
          obtain ⟨before, found'⟩ := Option.isSome_iff_exists.mp (taken.kept _ _ found)
          exact absurd (sound.inBags _ _ found').1 (by omega)
    · rintro gone isGone rfl
      exact absurd isGone.2.2 (by omega)

private theorem items_listed (absent : world.items.get? auction.itemGuid = none) (item : Item)
    (purses : Table Nat Nat) (carried : Table Nat CarriedItem) (itemGuid guid : Nat)
    : (world.listed house auction item purses carried itemGuid).items.get? guid
      = if guid = auction.itemGuid then some item else world.items.get? guid := by
  change (world.items.emplace auction.itemGuid item).get? guid = _
  rw [Table.get?_emplace, absent, Option.getD_none]

/-- An item that is gone stays gone when an auction is listed. -/
theorem Sound.gone_listed (sound : Sound world) {carried : Table Nat CarriedItem}
    {itemGuid guid : Nat}
    (taken : AuctionWorld.TakenFromBags world carried itemGuid auction.itemGuid)
    (gone : world.Gone guid) (item : Item) (purses : Table Nat Nat)
    : (world.listed house auction item purses carried itemGuid).Gone guid := by
  have fresh := sound.freshItem taken
  refine ⟨?_, ?_, lt_of_lt_of_le gone.2.2 fresh.grows⟩
  · change carried.get? guid = none
    cases found : carried.get? guid with
    | none => rfl
    | some stored =>
        have inBag := taken.kept _ _ found
        rw [gone.1] at inBag
        simp at inBag
  · rw [items_listed fresh.absent, if_neg (fresh.unused guid gone)]
    exact gone.2.1

/-- Listing an item that is carried or new keeps the invariant. -/
theorem Sound.listed (sound : Sound world) {item : Item} {purses : Table Nat Nat}
    {carried : Table Nat CarriedItem} {itemGuid : Nat}
    (bounded : ∀ player money, purses.get? player = some money → money ≤ maxMoneyAmount)
    (bounds : auction.InBounds)
    (taken : AuctionWorld.TakenFromBags world carried itemGuid auction.itemGuid)
    : Sound (world.listed house auction item purses carried itemGuid) := by
  have unissued := sound.unissued
  have live := fun house' id' => @getAuction_listed world house auction (unissued house) item purses
    carried itemGuid house' id'
  obtain ⟨absent, out, below, grows, unused⟩ := sound.freshItem taken
  have before (house' : AuctionHouses) (id' : Nat) (auction' : AuctionEntry)
      (found' : (world.listed house auction item purses carried itemGuid).getAuction house' id'
        = some auction')
      : (house' = house ∧ id' = world.auctionId ∧ auction' = auction)
        ∨ (world.getAuction house' id' = some auction' ∧ auction'.itemGuid ≠ auction.itemGuid) := by
    rw [live] at found'
    split at found'
    · rename_i here
      exact .inl ⟨here.1, here.2, (Option.some.inj found').symm⟩
    · refine .inr ⟨found', ?_⟩
      intro same
      have stored := sound.resolved _ _ _ found'
      rw [same, absent] at stored
      simp at stored
  have items := @items_listed world house auction absent item purses carried itemGuid
  exact
    { purses := bounded
      bounds := by
        intro house' id' auction' found'
        rcases before _ _ _ found' with ⟨_, _, rfl⟩ | ⟨stored, _⟩
        · exact bounds
        · exact sound.bounds _ _ _ stored
      issued := by
        intro house' id' auction' found'
        change id' < world.auctionId + 1
        rcases before _ _ _ found' with ⟨_, rfl, _⟩ | ⟨stored, _⟩
        · omega
        · exact Nat.lt_succ_of_lt (sound.issued _ _ _ stored)
      oneHouse := by
        intro house' other id' auction' auction'' found' found''
        rcases before _ _ _ found' with ⟨rfl, same, _⟩ | ⟨stored, _⟩
        · rcases before _ _ _ found'' with ⟨rfl, _, _⟩ | ⟨stored', _⟩
          · rfl
          · rw [same, unissued] at stored'
            simp at stored'
        · rcases before _ _ _ found'' with ⟨_, same, _⟩ | ⟨stored', _⟩
          · rw [same, unissued] at stored
            simp at stored
          · exact sound.oneHouse _ _ _ _ _ stored stored'
      oneAuction := by
        intro house' other id' otherId auction' auction'' found' found'' same
        rcases before _ _ _ found' with ⟨_, rfl, rfl⟩ | ⟨stored, different⟩
        · rcases before _ _ _ found'' with ⟨_, rfl, _⟩ | ⟨_, different⟩
          · rfl
          · exact absurd same.symm different
        · rcases before _ _ _ found'' with ⟨_, _, rfl⟩ | ⟨stored', _⟩
          · exact absurd same different
          · exact sound.oneAuction _ _ _ _ _ _ stored stored' same
      resolved := by
        intro house' id' auction' found'
        rw [items]
        rcases before _ _ _ found' with ⟨_, _, rfl⟩ | ⟨stored, different⟩
        · rw [if_pos rfl]
          rfl
        · rw [if_neg different]
          exact sound.resolved _ _ _ stored
      auctioned := by
        intro guid item' stored
        change guid < itemGuid ∧ _
        rw [items] at stored
        split at stored
        · rename_i same
          refine ⟨same ▸ below, house, world.auctionId, auction, ?_, same.symm⟩
          rw [live, if_pos ⟨rfl, rfl⟩]
        · obtain ⟨generated, house', id', auction', found', same⟩ := sound.auctioned _ _ stored
          refine ⟨lt_of_lt_of_le generated grows, house', id', auction', ?_, same⟩
          rw [live, if_neg, found']
          rintro ⟨rfl, rfl⟩
          rw [unissued] at found'
          simp at found'
      inBags := by
        intro guid stored inBag
        change carried.get? guid = some stored at inBag
        obtain ⟨stored', inBag'⟩ := Option.isSome_iff_exists.mp (taken.kept _ _ inBag)
        obtain ⟨generated, absent'⟩ := sound.inBags _ _ inBag'
        refine ⟨lt_of_lt_of_le generated grows, ?_⟩
        rw [items, if_neg, absent']
        rintro rfl
        rw [out] at inBag
        simp at inBag
      mailed := fun mail member guid carries =>
        sound.gone_listed taken (sound.mailed mail member guid carries) item purses
      deleted := fun guid member => sound.gone_listed taken (sound.deleted guid member) item purses }

-- Turns

variable {turn : Turn}

/-- An accepted bid is at least the outbid step above the old one, and within bounds. -/
theorem BidArrives.bid_bounds (sound : Sound world)
    (arrives : BidArrives config world turn house id player price money auction)
    (increment : auction.refusesIncrement price = false) (enough : price ≤ money)
    (below : auction.belowBuyOut price = true)
    : auction.bid + auction.getAuctionOutBid ≤ price ∧ (auction.withBid player price).InBounds := by
  have old := sound.bounds _ _ _ arrives.found
  have purse := sound.purses _ _ arrives.purse
  have step : auction.bid + auction.getAuctionOutBid ≤ price := by
    unfold AuctionEntry.refusesIncrement at increment
    rw [below, outBid_exact old.bid] at increment
    simpa using increment
  refine ⟨step, ⟨le_trans enough purse, old.deposit, ?_⟩⟩
  intro limited
  unfold AuctionEntry.belowBuyOut at below
  change price < auction.buyOut
  simpa [show auction.buyOut ≠ 0 from limited] using below

/-- A buyout pays the buyout, which is above the bid. -/
theorem BidArrives.buyOut_bounds (sound : Sound world)
    (arrives : BidArrives config world turn house id player price money auction)
    (below : auction.belowBuyOut price = false)
    : auction.buyOut ≠ 0 ∧ auction.buyOut ≤ price ∧ auction.bid < auction.buyOut := by
  have old := sound.bounds _ _ _ arrives.found
  have ended : auction.buyOut ≤ price ∧ auction.buyOut ≠ 0 := by
    unfold AuctionEntry.belowBuyOut at below
    simpa using below
  exact ⟨ended.2, ended.1, old.belowBuyOut ended.2⟩

/-- The bid turn as one update. -/
theorem BidArrives.acceptBid_eq (sound : Sound world)
    (arrives : BidArrives config world turn house id player price money auction)
    (increment : auction.refusesIncrement price = false) (enough : price ≤ money)
    (below : auction.belowBuyOut price = true)
    : world.acceptBid config characters house id auction player price
      = world.rebid config characters house id auction player price := by
  have ended := (arrives.bid_bounds sound increment enough below).1
  exact AuctionWorld.acceptBid_eq arrives.purse (sound.purses _ _ arrives.purse) (by omega) enough

/-- The buyout turn as one settlement. -/
theorem BidArrives.buyOut_eq (sound : Sound world)
    (arrives : BidArrives config world turn house id player price money auction)
    (enough : price ≤ money) (below : auction.belowBuyOut price = false)
    : world.buyOut config characters house id auction player
      = world.settled characters house id auction.itemGuid
          (world.money.modify player (fun money => money - auction.charged player auction.buyOut))
          (auction.refunds config characters id player
            ++ characters.delivered ((auction.withBid player auction.buyOut).salePendingMail config id)
            ++ characters.delivered ((auction.withBid player auction.buyOut).successfulMail config id))
          ((auction.withBid player auction.buyOut).wonMail id player) := by
  have ended := arrives.buyOut_bounds sound below
  exact AuctionWorld.buyOut_eq arrives.purse (sound.purses _ _ arrives.purse) (by omega) (by omega)
    (sound.resolved _ _ _ arrives.found)

/-- The cancel turn as one settlement. -/
theorem CancelArrives.cancel_eq (sound : Sound world)
    (arrives : CancelArrives config world turn house id player money auction)
    : world.cancel config turn.characters house id auction player
      = world.settled turn.characters house id auction.itemGuid
          (match auction.bidder with
            | none => world.money
            | some _ => world.money.modify player (fun money => money - auction.getAuctionCut config))
          (match auction.bidder with
            | none => []
            | some bidder => turn.characters.delivered (auction.cancelledToBidderMail id bidder))
          (auction.canceledMail id player) :=
  AuctionWorld.cancel_eq arrives.purse (sound.purses _ _ arrives.purse) arrives.connected
    arrives.enough

/-- An update of the world that settles one auction, with the mail that takes its item. -/
def Settles (characters : Characters) (world after : AuctionWorld) (house : AuctionHouses) (id : Nat)
    (auction : AuctionEntry) (mail : AuctionMail) : Prop :=
  ∃ purses notes, after = world.settled characters house id auction.itemGuid purses notes mail
    ∧ (∀ player money, purses.get? player = some money → money ≤ maxMoneyAmount)
    ∧ ∀ note ∈ notes, note.item = none

theorem Sound.of_settles (sound : Sound world) {after : AuctionWorld} {mail : AuctionMail}
    (found : world.getAuction house id = some auction)
    (settles : Settles characters world after house id auction mail)
    : Sound after := by
  obtain ⟨purses, notes, rfl, bounded, money⟩ := settles
  exact sound.settled found bounded money

theorem delivered_item {mail sent : AuctionMail} (noItem : mail.item = none)
    (member : sent ∈ characters.delivered mail)
    : sent.item = none := by
  unfold Characters.delivered at member
  split at member
  · exact List.mem_singleton.mp member ▸ noItem
  · simp at member

/-- Expiring a live auction is one settlement. -/
theorem Sound.expire_eq (sound : Sound world) (found : world.getAuction house id = some auction)
    : world.expire config characters ⟨house, id, auction⟩
      = world.settled characters house id auction.itemGuid world.money
          (match auction.bidder with
            | none => []
            | some _ => characters.delivered (auction.successfulMail config id))
          (match auction.bidder with
            | none => auction.expiredMail id
            | some bidder => auction.wonMail id bidder) :=
  AuctionWorld.settleExpired_eq (sound.resolved _ _ _ found)

/-- A buyout settles the auction in favour of the buyer. -/
theorem BidArrives.settles (sound : Sound world)
    (arrives : BidArrives config world turn house id player price money auction)
    (enough : price ≤ money) (below : auction.belowBuyOut price = false)
    : Settles turn.characters world (world.buyOut config turn.characters house id auction player)
        house id auction ((auction.withBid player auction.buyOut).wonMail id player) := by
  refine ⟨_, _, arrives.buyOut_eq sound enough below, charged_purses sound _,
    fun note member => ?_⟩
  rcases List.mem_append.mp member with first | successful
  · rcases List.mem_append.mp first with refund | pending
    · exact refunds_item refund
    · exact delivered_item rfl pending
  · exact delivered_item rfl successful

/-- A cancel request settles the auction in favour of its owner. -/
theorem CancelArrives.settles (sound : Sound world)
    (arrives : CancelArrives config world turn house id player money auction)
    : Settles turn.characters world (world.cancel config turn.characters house id auction player)
        house id auction (auction.canceledMail id player) := by
  refine ⟨_, _, arrives.cancel_eq sound, ?_, fun note member => ?_⟩
  · split
    · exact sound.purses
    · exact charged_purses sound _
  · split at member
    · simp at member
    · exact delivered_item rfl member

/-- Expiring settles the auction in favour of the last bidder, or of the owner without one. -/
theorem Sound.expire_settles (sound : Sound world)
    (found : world.getAuction house id = some auction)
    : Settles characters world (world.expire config characters ⟨house, id, auction⟩) house id auction
        (match auction.bidder with
          | none => auction.expiredMail id
          | some bidder => auction.wonMail id bidder) := by
  refine ⟨_, _, sound.expire_eq found, sound.purses, fun note member => ?_⟩
  split at member
  · simp at member
  · exact delivered_item rfl member

def AuctionWorld.Standing (world : AuctionWorld) (due : AuctionWorld.DueAuction) : Prop :=
  world.getAuction due.house due.id = some due.auction

/-- Expiring keeps the invariant. -/
theorem Sound.expire (sound : Sound world) {due : AuctionWorld.DueAuction}
    (standing : world.Standing due)
    : Sound (world.expire config characters due) :=
  sound.of_settles standing (sound.expire_settles standing)

/-- An auction stands until it is its turn. -/
private theorem standing_expire (sound : Sound world) {due other : AuctionWorld.DueAuction}
    (standing : world.Standing due) (standing' : world.Standing other)
    (different : ¬ (due.house = other.house ∧ due.id = other.id))
    : (world.expire config characters due).Standing other := by
  have equal := @Sound.expire_eq config characters world due.house due.id due.auction sound standing
  unfold AuctionWorld.Standing
  rw [equal, getAuction_settled, if_neg (fun same => different ⟨same.1.symm, same.2.symm⟩)]
  exact standing'

private theorem expire_all {dues : List AuctionWorld.DueAuction} (sound : Sound world)
    (standing : ∀ due ∈ dues, world.Standing due)
    (different : dues.Pairwise (fun due other => ¬ (due.house = other.house ∧ due.id = other.id)))
    : EachStep (AuctionWorld.expire config characters) (fun world due => world.Standing due)
        world dues := by
  induction dues generalizing world with
  | nil => trivial
  | cons due rest ih =>
      have first := standing due List.mem_cons_self
      obtain ⟨apart, later⟩ := List.pairwise_cons.mp different
      refine ⟨first, ih (sound.expire first) (fun other member => ?_) later⟩
      exact standing_expire sound first (standing other (List.mem_cons_of_mem _ member))
        (apart other member)

private theorem dueIn_member {now : Int} {due : AuctionWorld.DueAuction}
    (member : due ∈ world.dueIn now house)
    : due.house = house ∧ world.Standing due ∧ due.auction.expireTime ≤ now + 60 := by
  obtain ⟨entry, kept, rfl⟩ := List.mem_map.mp member
  obtain ⟨stored, expired⟩ := List.mem_filter.mp kept
  exact ⟨rfl, Table.get?_eq_some_iff.mpr stored, by simpa using expired⟩

private theorem dueIn_pairwise (now : Int)
    : (world.dueIn now house).Pairwise
        (fun due other => ¬ (due.house = other.house ∧ due.id = other.id)) := by
  have keys := List.nodupKeys_iff_pairwise.mp (world.auctions house).nodupKeys
  refine List.pairwise_map.mpr ((keys.sublist List.filter_sublist).imp ?_)
  exact fun different same => different same.2

/-- A due auction stands in its house and has expired. -/
theorem due_member {now : Int} {due : AuctionWorld.DueAuction} (member : due ∈ world.due now)
    : world.Standing due ∧ due.auction.expireTime ≤ now + 60 := by
  unfold AuctionWorld.due at member
  rcases List.mem_append.mp member with first | neutral
  · rcases List.mem_append.mp first with horde | alliance
    · exact (dueIn_member horde).2
    · exact (dueIn_member alliance).2
  · exact (dueIn_member neutral).2

/-- No auction is due twice. -/
theorem due_pairwise (now : Int)
    : (world.due now).Pairwise
        (fun due other => ¬ (due.house = other.house ∧ due.id = other.id)) := by
  have houses {first second : AuctionHouses} (h : first ≠ second)
      : ∀ due ∈ world.dueIn now first, ∀ other ∈ world.dueIn now second,
        ¬ (due.house = other.house ∧ due.id = other.id) := by
    rintro due member other member' ⟨same, _⟩
    rw [(dueIn_member member).1, (dueIn_member member').1] at same
    exact h same
  unfold AuctionWorld.due
  refine List.pairwise_append.mpr ⟨List.pairwise_append.mpr
    ⟨dueIn_pairwise now, dueIn_pairwise now, houses (by simp)⟩, dueIn_pairwise now, ?_⟩
  intro due member other member'
  rcases List.mem_append.mp member with horde | alliance
  · exact houses (by simp) due horde other member'
  · exact houses (by simp) due alliance other member'

/-- Every expired auction is due, wherever it stands. -/
private theorem mem_due {now : Int} (found : world.getAuction house id = some auction)
    (expired : auction.expireTime ≤ now + 60)
    : ⟨house, id, auction⟩ ∈ world.due now := by
  have here : ⟨house, id, auction⟩ ∈ world.dueIn now house := by
    refine List.mem_map.mpr ⟨⟨id, auction⟩, List.mem_filter.mpr ⟨?_, by simpa using expired⟩, rfl⟩
    exact Table.get?_eq_some_iff.mp found
  unfold AuctionWorld.due
  cases house with
  | horde => exact List.mem_append_left _ (List.mem_append_left _ here)
  | alliance => exact List.mem_append_left _ (List.mem_append_right _ here)
  | neutral => exact List.mem_append_right _ here

/-- An expired auction is due once: Update settles others before it, it, and others after it. -/
theorem Sound.due_split (sound : Sound world) {now : Int}
    (found : world.getAuction house id = some auction) (expired : auction.expireTime ≤ now + 60)
    : ∃ first later, world.due now = first ++ ⟨house, id, auction⟩ :: later
        ∧ (∀ due ∈ first, id ≠ due.id) ∧ ∀ due ∈ later, id ≠ due.id := by
  obtain ⟨first, later, split⟩ := List.append_of_mem (mem_due found expired)
  have apart := @due_pairwise world now
  rw [split] at apart
  obtain ⟨_, rest, across⟩ := List.pairwise_append.mp apart
  have same {due : AuctionWorld.DueAuction} (member : due ∈ world.due now) (same : id = due.id)
      : house = due.house := by
    have standing := (due_member member).1
    subst same
    exact sound.oneHouse _ _ _ _ _ found standing
  refine ⟨first, later, split, fun due member equal => ?_, fun due member equal => ?_⟩
  · have member' : due ∈ world.due now := split ▸ List.mem_append_left _ member
    exact across due member _ List.mem_cons_self ⟨(same member' equal).symm, equal.symm⟩
  · have member' : due ∈ world.due now :=
      split ▸ List.mem_append_right _ (List.mem_cons_of_mem _ member)
    exact (List.pairwise_cons.mp rest).1 due member ⟨same member' equal, equal⟩

/-- Every auction that Update settles stands when its turn comes. -/
theorem Sound.due_standing (sound : Sound world) (now : Int)
    : EachStep (AuctionWorld.expire config characters) (fun world due => world.Standing due)
        world (world.due now) :=
  expire_all sound (fun _ member => (due_member member).1) (due_pairwise now)

/-- Every turn keeps the invariant. -/
theorem Sound.step (sound : Sound world) (turn : Turn)
    : Sound (step config world turn) := by
  have effect := handle_effect config world turn
  unfold Auction.step
  generalize handle config world turn = handled at effect
  cases effect with
  | nothing refused stopped => exact sound
  | listed arrives =>
      obtain ⟨creature, _, offered⟩ := arrives.request
      have purse := sound.purses _ _ arrives.purse
      obtain ⟨auction, item, carried, itemGuid, equal, new, taken⟩ :=
        AuctionWorld.list_eq turn.now offered arrives.purse purse arrives.enough
      simp only [equal]
      refine sound.listed (charged_purses sound _) ⟨?_, ?_, ?_⟩ taken
      · rw [new.bid]
        omega
      · rw [new.deposit]
        exact le_trans arrives.enough purse
      · rw [new.bid]
        omega
  | bid arrives increment enough below =>
      simp only [arrives.acceptBid_eq sound increment enough below]
      exact sound.rebid arrives.found (arrives.bid_bounds sound increment enough below).2
  | boughtOut arrives enough below =>
      exact sound.of_settles arrives.found (arrives.settles sound enough below)
  | canceled arrives => exact sound.of_settles arrives.found (arrives.settles sound)
  | updated running request =>
      have preserved (world : AuctionWorld) (due : AuctionWorld.DueAuction) (sound : Sound world)
          (standing : world.Standing due)
          : Sound (world.expire config turn.characters due) := sound.expire standing
      simp only [AuctionWorld.update_eq]
      exact run_of_invariant preserved sound (sound.due_standing turn.now)

structure Opened (world : AuctionWorld) : Prop where
  auctions : ∀ house, world.auctions house = ∅
  items : world.items = ∅
  mails : world.mails = []
  deletedItems : world.deletedItems = []
  purses : ∀ player money, world.money.get? player = some money → money ≤ maxMoneyAmount
  inBags : ∀ guid stored, world.carried.get? guid = some stored → guid < world.itemGuid

/-- The invariant holds before the first turn. -/
theorem Opened.sound (opened : Opened world)
    : Sound world := by
  have empty (house : AuctionHouses) (id : Nat) : world.getAuction house id = none := by
    unfold AuctionWorld.getAuction
    rw [opened.auctions]
    rfl
  have noItem (guid : Nat) : world.items.get? guid = none := by
    rw [opened.items]
    rfl
  constructor
  case purses => exact opened.purses
  case auctioned => simp [noItem]
  case inBags => exact fun guid stored inBag => ⟨opened.inBags guid stored inBag, noItem guid⟩
  case mailed => simp [opened.mails]
  case deleted => simp [opened.deletedItems]
  all_goals simp [empty]

end Updates

-- A small market

def smallConfig : Config :=
  { auctionHouseStore := fun _ => some { cutPercent := 5, depositPercent := 5 } }

def everyone : Characters := { connected := fun _ => true, accountId := fun guid => guid }

/-- Three players with a gold piece each; the first carries an item. -/
def smallMarket : AuctionWorld :=
  let sword : Item := { entry := 25, count := 1, maxStackCount := 1, sellPrice := 0 }
  { auctions := fun _ => ∅,
    items := ∅,
    money := ((Table.emplace ∅ 1 10000).emplace 2 10000).emplace 3 10000,
    carried := Table.emplace ∅ 1 { owner := 1, item := sword },
    mails := [],
    deletedItems := [],
    auctionId := 1,
    itemGuid := 2 }

/-- The first player offers the item for a starting bid of a hundred copper. -/
def smallOffer (buyout : Nat) : Turn :=
  { characters := everyone,
    now := 0,
    request := .sellItem 1 { items := [(1, 1)], expireTime := 720, bid := 100, buyout := buyout }
      (some { faction := none }) }

def smallBid (player price : Nat) : Turn :=
  { characters := everyone,
    now := 0,
    request := .placeBid player player (some { faction := none }) 1 price }

theorem smallMarket_opened
    : Opened smallMarket where
  auctions _ := rfl
  items := rfl
  mails := rfl
  deletedItems := rfl
  purses := by
    intro player money found
    have stored : smallMarket.money.get? player = some money := found
    simp only [smallMarket, Table.get?_emplace, Table.get?_empty] at stored
    unfold maxMoneyAmount
    grind
  inBags := by
    intro guid stored found
    have carried : smallMarket.carried.get? guid = some stored := found
    simp only [smallMarket, Table.get?_emplace, Table.get?_empty] at carried
    change guid < 2
    grind

/-- From empty houses, in every run no purse is over the limit, live auctions have prices in bounds,
ids below the next one and items of their own, and each item is at one place only: in a bag, in an
auction, or in mails and deletions.
-/
theorem auction_world_is_sound (config : Config) (start : AuctionWorld) (opened : Opened start)
    (turns : List Turn)
    : EachState (step config) Sound start turns :=
  eachState_of_step (fun _ turn sound => sound.step turn) opened.sound turns

theorem auction_world_is_sound_applied
    : EachState (step smallConfig) Sound smallMarket [smallOffer 1000, smallBid 2 1000] :=
  auction_world_is_sound smallConfig smallMarket smallMarket_opened _

end WarheadCore.Auction
