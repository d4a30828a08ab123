import WarheadCore.Auction.Soundness

/-! A sell request is all or nothing.
The stacks of an accepted offer lose what the auction gains, and the deposit leaves the purse
once; a refused offer leaves the world as it was.
-/

namespace WarheadCore.Auction

open Foundation Foundation.Runs WarheadCore.Player

-- Units

namespace AuctionWorld

def carriedUnits (world : AuctionWorld) (player : Nat) (kind : Nat → Bool) : Int :=
  world.carried.sum (fun stored =>
    if stored.owner = player ∧ kind stored.item.entry then stored.item.count else 0)

def unitsIn (world : AuctionWorld) (player : Nat) (kind : Nat → Bool) (house : AuctionHouses)
    : Int :=
  (world.auctions house).sum (fun auction =>
    if auction.playerOwner = player ∧ kind auction.itemID then auction.itemCount else 0)

/-- The units of these templates that a player has, in the bags or on auction. -/
def units (world : AuctionWorld) (player : Nat) (kind : Nat → Bool) : Int :=
  world.carriedUnits player kind
    + (world.unitsIn player kind .alliance + world.unitsIn player kind .horde
      + world.unitsIn player kind .neutral)

end AuctionWorld

-- The law of posting

structure Unposted (world : AuctionWorld) (handled : Handled) : Prop where
  unchanged : handled.world = world
  refused : ∀ reply ∈ handled.replies, reply.errorCode ≠ .ok

def CarriedItem.without (stored : CarriedItem) (count : Nat) : Option CarriedItem :=
  if stored.item.count = count then none
  else some { stored with item := { stored.item with count := stored.item.count - count } }

/-- A sell request that posts an auction in a house, from a purse of this much money.
Template 0 stands for no item, so it is the one template the offered stacks are not compared with.
-/
structure Posted (config : Config) (world : AuctionWorld) (player : Nat) (packet : AuctionSellItem)
    (handled : Handled) (house : AuctionHouses) (auction : AuctionEntry) (money : Nat)
    : Prop where
  replied : handled.replies
    = [{ auctionID := world.auctionId, action := .sellItem, errorCode := .ok }]
  distinct : (packet.items.map Prod.fst).Nodup
  unauctioned : ∀ offered ∈ packet.items, ∀ house id other,
    world.getAuction house id = some other → other.itemGuid ≠ offered.1
  deposit : ∃ asked stored, packet.items.head? = some asked
    ∧ world.carried.get? asked.1 = some stored ∧ stored.item.entry = auction.itemID
    ∧ auction.deposit = getAuctionDeposit config auction.auctionHouseEntry packet.expireTime
        stored.item auction.itemCount
  purse : world.money.get? player = some money
  afforded : auction.deposit ≤ money
  charged : ∀ other, handled.world.money.get? other
    = if other = player then some (money - auction.deposit) else world.money.get? other
  added : ∀ house' id, handled.world.getAuction house' id
    = if house' = house ∧ id = world.auctionId then some auction else world.getAuction house' id
  asked : auction.playerOwner = player ∧ auction.startBid = packet.bid
    ∧ auction.buyOut = packet.buyout ∧ auction.bid = 0 ∧ auction.bidder = none
  counted : auction.itemCount = (packet.items.map Prod.snd).sum
  item : ∃ item, handled.world.items.get? auction.itemGuid = some item
    ∧ item.entry = auction.itemID ∧ item.count = auction.itemCount
  onlyThere : handled.world.carried.get? auction.itemGuid = none
    ∧ ∀ house id other, world.getAuction house id = some other
        → other.itemGuid ≠ auction.itemGuid
  taken : ∀ offered ∈ packet.items, ∃ stored, world.carried.get? offered.1 = some stored
    ∧ stored.owner = player ∧ offered.2 ≤ stored.item.count
    ∧ handled.world.carried.get? offered.1 = stored.without offered.2
  kept : ∀ guid, guid ∉ packet.items.map Prod.fst
    → handled.world.carried.get? guid = world.carried.get? guid
  units : handled.world.units player (fun _ => true) = world.units player (fun _ => true)
  kinds : (∀ guid stored, world.carried.get? guid = some stored → stored.item.entry ≠ 0)
    → ∀ kind, handled.world.units player kind = world.units player kind

-- The offered stacks

structure Collected (world : AuctionWorld) (player : Nat) (offered : OfferedItem) : Prop where
  carried : world.carried.get? offered.guid = some { owner := player, item := offered.item }
  unauctioned : world.items.get? offered.guid = none
  enough : offered.count ≤ offered.item.count

/-- One round of the loop, when it goes on. -/
theorem collectItems_cons {world : AuctionWorld} {player itemEntry guid count : Nat}
    {rest : List (Nat × Nat)} {offered : List OfferedItem}
    (h : world.collectItems player itemEntry ((guid, count) :: rest) = .ok offered)
    : ∃ item others, offered = { guid := guid, item := item, count := count } :: others
        ∧ Collected world player { guid := guid, item := item, count := count }
        ∧ (itemEntry ≠ 0 → item.entry = itemEntry)
        ∧ world.collectItems player item.entry rest = .ok others := by
  unfold AuctionWorld.collectItems at h
  cases found : world.getItemByGuid player guid with
  | none => simp [found] at h
  | some item =>
      simp only [found] at h
      have carried : world.carried.get? guid = some { owner := player, item := item } := by
        unfold AuctionWorld.getItemByGuid at found
        cases stored : world.carried.get? guid with
        | none => simp [stored] at found
        | some inBag =>
            simp only [stored] at found
            split at found
            · rename_i owner
              obtain rfl := Option.some.inj found
              obtain ⟨_, _⟩ := inBag
              obtain rfl : _ = player := owner
              rfl
            · simp at found
      by_cases auctioned : (world.getAuctionItem guid).isSome = true
      · rw [if_pos auctioned] at h
        simp at h
      rw [if_neg auctioned] at h
      have unauctioned : world.items.get? guid = none := by
        simpa [AuctionWorld.getAuctionItem] using auctioned
      by_cases untradable : (!item.canBeTraded) = true
      · rw [if_pos untradable] at h
        simp at h
      rw [if_neg untradable] at h
      by_cases filled : item.isNotEmptyBag = true
      · rw [if_pos filled] at h
        simp at h
      rw [if_neg filled] at h
      by_cases fleeting : (item.conjured || item.duration ≠ 0) = true
      · rw [if_pos fleeting] at h
        simp at h
      rw [if_neg fleeting] at h
      generalize known : (if itemEntry = 0 then item.entry else itemEntry) = entry at h
      by_cases short : (item.count < count || entry ≠ item.entry) = true
      · rw [if_pos short] at h
        simp at h
      rw [if_neg short] at h
      obtain ⟨enough, rfl⟩ : count ≤ item.count ∧ entry = item.entry := by simpa using short
      cases later : world.collectItems player item.entry rest with
      | error refusal => simp [later] at h
      | ok others =>
          simp only [later, Except.ok.injEq] at h
          refine ⟨item, others, h.symm, ⟨carried, unauctioned, enough⟩, fun asked => ?_, later⟩
          rw [if_neg asked] at known
          exact known.symm

/-- The loop finds the stacks of the packet, in order.
Witness: induction on the packet, one round at a time.
-/
theorem collectItems_collected {world : AuctionWorld} {player itemEntry : Nat}
    {items : List (Nat × Nat)} {offered : List OfferedItem}
    (h : world.collectItems player itemEntry items = .ok offered)
    : offered.map (fun stack => (stack.guid, stack.count)) = items
        ∧ ∀ stack ∈ offered, Collected world player stack := by
  induction items generalizing itemEntry offered with
  | nil =>
      obtain rfl : [] = offered := by simpa [AuctionWorld.collectItems] using h
      exact ⟨rfl, by simp⟩
  | cons asked rest ih =>
      obtain ⟨guid, count⟩ := asked
      obtain ⟨item, others, rfl, collected, _, later⟩ := collectItems_cons h
      obtain ⟨same, all⟩ := ih later
      exact ⟨by rw [List.map_cons, same], List.forall_mem_cons.mpr ⟨collected, all⟩⟩

/-- Stacks of real templates are all of one template. -/
theorem collectItems_one_kind {world : AuctionWorld} {player itemEntry : Nat}
    {items : List (Nat × Nat)} {offered : List OfferedItem}
    (h : world.collectItems player itemEntry items = .ok offered)
    (real : ∀ stack ∈ offered, stack.item.entry ≠ 0)
    : ∃ kind, (itemEntry ≠ 0 → kind = itemEntry)
        ∧ ∀ stack ∈ offered, stack.item.entry = kind := by
  induction items generalizing itemEntry offered with
  | nil =>
      obtain rfl : [] = offered := by simpa [AuctionWorld.collectItems] using h
      exact ⟨itemEntry, fun _ => rfl, by simp⟩
  | cons asked rest ih =>
      obtain ⟨guid, count⟩ := asked
      obtain ⟨item, others, rfl, -, same, later⟩ := collectItems_cons h
      obtain ⟨first, realRest⟩ := List.forall_mem_cons.mp real
      obtain ⟨kind, known, all⟩ := ih later realRest
      have here : item.entry = kind := (known first).symm
      exact ⟨kind, fun given => here.symm.trans (same given),
        List.forall_mem_cons.mpr ⟨here, all⟩⟩

theorem Offer.finalCount_eq (offer : Offer)
    : offer.finalCount = (offer.offered.map OfferedItem.count).sum := rfl

-- The bags after a listing

def bagsWithout (bags : Table Nat CarriedItem) (offered : OfferedItem) : Table Nat CarriedItem :=
  if offered.item.count = offered.count then bags.remove offered.guid
  else
    bags.modify offered.guid (fun stored =>
      { stored with item := { stored.item with count := stored.item.count - offered.count } })

namespace AuctionWorld

theorem takeFromStack_foldl_eq (offered : List OfferedItem) (world : AuctionWorld)
    : offered.foldl takeFromStack world
      = { world with carried := offered.foldl bagsWithout world.carried } := by
  induction offered generalizing world with
  | nil => rfl
  | cons first rest ih =>
      have once : world.takeFromStack first
          = { world with carried := bagsWithout world.carried first } := by
        unfold takeFromStack bagsWithout
        split <;> rfl
      rw [List.foldl_cons, List.foldl_cons, once, ih]

end AuctionWorld

structure MovedOut (world : AuctionWorld) (offer : Offer) (itemGuid guid : Nat) (item : Item)
    : Prop where
  moved : AuctionWorld.takeItem world offer
    = ({ world with
          carried := offer.offered.foldl bagsWithout world.carried, itemGuid := itemGuid },
        guid, item)
  entry : item.entry = offer.first.item.entry
  count : item.count = offer.finalCount

/-- A whole single stack moves as it is, anything else as a new item of the whole count. -/
theorem takeItem_movedOut (world : AuctionWorld) (offer : Offer)
    : ∃ itemGuid guid item, MovedOut world offer itemGuid guid item := by
  by_cases whole : offer.others = [] ∧ offer.first.item.count = offer.first.count
  · refine ⟨world.itemGuid, offer.first.guid, offer.first.item, ?_, rfl, ?_⟩
    · unfold AuctionWorld.takeItem Offer.offered
      rw [if_pos whole, whole.1, List.foldl_cons, List.foldl_nil]
      unfold bagsWithout
      rw [if_pos whole.2]
    · rw [Offer.finalCount_eq, Offer.offered, whole.1]
      simpa using whole.2
  · refine ⟨world.itemGuid + 1, world.itemGuid,
      { offer.first.item with count := offer.finalCount }, ?_, rfl, rfl⟩
    unfold AuctionWorld.takeItem
    rw [if_neg whole, AuctionWorld.takeFromStack_foldl_eq]
    rfl

theorem get?_bagsWithout (bags : Table Nat CarriedItem) (offered : OfferedItem) (guid : Nat)
    {stored : CarriedItem} (carried : bags.get? offered.guid = some stored)
    (same : stored.item = offered.item)
    : (bagsWithout bags offered).get? guid
      = if guid = offered.guid then stored.without offered.count else bags.get? guid := by
  unfold bagsWithout CarriedItem.without
  rw [same]
  by_cases whole : offered.item.count = offered.count
  · rw [if_pos whole, if_pos whole, Table.get?_remove]
  · rw [if_neg whole, if_neg whole, Table.get?_modify]
    split
    · rename_i here
      rw [here, carried, Option.map_some, same]
    · rfl

/-- The bags lose exactly the count that is taken. -/
theorem sum_bagsWithout (bags : Table Nat CarriedItem) (offered : OfferedItem)
    (player : Nat) (kind : Nat → Bool)
    (carried : bags.get? offered.guid = some { owner := player, item := offered.item })
    (enough : offered.count ≤ offered.item.count)
    : (bagsWithout bags offered).sum (fun stored =>
          if stored.owner = player ∧ kind stored.item.entry then stored.item.count else 0)
      = bags.sum (fun stored =>
          if stored.owner = player ∧ kind stored.item.entry then stored.item.count else 0)
        - (if kind offered.item.entry then (offered.count : Int) else 0) := by
  unfold bagsWithout
  by_cases whole : offered.item.count = offered.count
  · rw [if_pos whole, Table.sum_remove carried]
    simp [whole]
  · rw [if_neg whole, Table.sum_modify carried]
    by_cases wanted : kind offered.item.entry = true
    · simp [wanted]
      omega
    · simp [wanted]

structure Emptied (bags after : Table Nat CarriedItem) (player : Nat)
    (offered : List OfferedItem) : Prop where
  kept : ∀ guid, guid ∉ offered.map OfferedItem.guid → after.get? guid = bags.get? guid
  taken : ∀ stack ∈ offered, after.get? stack.guid
    = CarriedItem.without { owner := player, item := stack.item } stack.count
  units : ∀ kind : Nat → Bool, after.sum (fun stored =>
        if stored.owner = player ∧ kind stored.item.entry then stored.item.count else 0)
    = bags.sum (fun stored =>
        if stored.owner = player ∧ kind stored.item.entry then stored.item.count else 0)
      - (offered.map (fun stack =>
          if kind stack.item.entry then (stack.count : Int) else 0)).sum

/-- Taking from distinct stacks, one after the other, takes from each what was there at first.
Witness: induction on the stacks; the later ones are under other guids than the first.
-/
theorem foldl_bagsWithout (player : Nat) {offered : List OfferedItem}
    (bags : Table Nat CarriedItem) (distinct : (offered.map OfferedItem.guid).Nodup)
    (carried : ∀ stack ∈ offered,
      bags.get? stack.guid = some { owner := player, item := stack.item }
        ∧ stack.count ≤ stack.item.count)
    : Emptied bags (offered.foldl bagsWithout bags) player offered := by
  induction offered generalizing bags with
  | nil => exact ⟨fun _ _ => rfl, by simp, by simp⟩
  | cons first rest ih =>
      obtain ⟨here, apart⟩ := List.nodup_cons.mp distinct
      obtain ⟨⟨inBags, enough⟩, others⟩ := List.forall_mem_cons.mp carried
      have once (guid : Nat) := get?_bagsWithout bags first guid inBags rfl
      have emptied := ih (bagsWithout bags first) apart (by
        intro stack member
        have other : stack.guid ≠ first.guid := fun same =>
          here (same ▸ List.mem_map_of_mem member)
        rw [once, if_neg other]
        exact others stack member)
      refine ⟨fun guid absent => ?_, fun stack member => ?_, fun kind => ?_⟩
      · rw [List.map_cons, List.mem_cons, not_or] at absent
        rw [List.foldl_cons, emptied.kept guid absent.2, once, if_neg absent.1]
      · rcases List.mem_cons.mp member with rfl | later
        · rw [List.foldl_cons, emptied.kept _ here, once, if_pos rfl]
        · exact emptied.taken stack later
      · rw [List.foldl_cons, emptied.units, sum_bagsWithout bags first player kind inBags enough,
          List.map_cons, List.sum_cons]
        omega

-- The houses after a listing

/-- A new auction adds its units to its owner. -/
theorem houses_listed {world : AuctionWorld} (house : AuctionHouses) (auction : AuctionEntry)
    (fresh : ∀ house, world.getAuction house world.auctionId = none) (item : Item)
    (purses : Table Nat Nat) (carried : Table Nat CarriedItem) (itemGuid player : Nat)
    (kind : Nat → Bool)
    : (world.listed house auction item purses carried itemGuid).units player kind
      = carried.sum (fun stored =>
          if stored.owner = player ∧ kind stored.item.entry then stored.item.count else 0)
        + (world.unitsIn player kind .alliance + world.unitsIn player kind .horde
          + world.unitsIn player kind .neutral)
        + if auction.playerOwner = player ∧ kind auction.itemID then auction.itemCount else 0 := by
  have house_eq (other : AuctionHouses)
      : (world.listed house auction item purses carried itemGuid).unitsIn player kind other
        = world.unitsIn player kind other
          + if other = house then
              (if auction.playerOwner = player ∧ kind auction.itemID then
                (auction.itemCount : Int) else 0)
            else 0 := by
    unfold AuctionWorld.unitsIn AuctionWorld.listed
    dsimp only
    by_cases here : other = house
    · subst here
      rw [Function.update_self, Table.sum_emplace (fresh other), if_pos rfl]
    · rw [Function.update_of_ne here, if_neg here, add_zero]
  unfold AuctionWorld.units
  rw [house_eq, house_eq, house_eq]
  have bags : (world.listed house auction item purses carried itemGuid).carriedUnits player kind
      = carried.sum (fun stored =>
          if stored.owner = player ∧ kind stored.item.entry then stored.item.count else 0) := rfl
  rw [bags]
  cases house <;> simp <;> omega

-- Atomicity

section Atomicity

variable {config : Config} {world : AuctionWorld} {turn : Turn} {player money deposit : Nat}
  {packet : AuctionSellItem} {offer : Offer}

structure ListedAs (config : Config) (world : AuctionWorld) (turn : Turn) (player money : Nat)
    (packet : AuctionSellItem) (offer : Offer) (deposit : Nat) (auction : AuctionEntry)
    (item : Item) (itemGuid : Nat) : Prop where
  listed : world.list config turn.now player packet offer deposit
    = world.listed offer.house auction item
        (world.money.modify player (fun money => money - deposit))
        (offer.offered.foldl bagsWithout world.carried) itemGuid
  new : AuctionWorld.NewAuction auction player deposit packet
  houseEntry : auction.auctionHouseEntry = offer.houseEntry
  entry : item.entry = auction.itemID ∧ auction.itemID = offer.first.item.entry
  count : item.count = auction.itemCount ∧ auction.itemCount = offer.finalCount

/-- An accepted offer is listed with its stacks taken from the bags. -/
theorem OfferArrives.listedAs (sound : Sound world)
    (arrives : OfferArrives config world turn player money deposit packet offer)
    : ∃ auction item itemGuid,
        ListedAs config world turn player money packet offer deposit auction item itemGuid := by
  have charged := AuctionWorld.charge_eq world arrives.purse (sound.purses _ _ arrives.purse)
    arrives.enough
  obtain ⟨itemGuid, guid, item, moved⟩ := takeItem_movedOut
    { world with
      money := world.money.modify player (fun money => money - deposit),
      auctionId := world.auctionId + 1 } offer
  obtain ⟨auction, listed, new, houseEntry, entry, count⟩ : ∃ auction,
      world.list config turn.now player packet offer deposit
          = world.listed offer.house auction item
              (world.money.modify player (fun money => money - deposit))
              (offer.offered.foldl bagsWithout world.carried) itemGuid
        ∧ AuctionWorld.NewAuction auction player deposit packet
        ∧ auction.auctionHouseEntry = offer.houseEntry
        ∧ auction.itemID = item.entry ∧ auction.itemCount = item.count := by
    unfold AuctionWorld.list
    simp only [charged, moved.moved]
    exact ⟨_, rfl, ⟨rfl, rfl, rfl, rfl, rfl, rfl⟩, rfl, rfl, rfl⟩
  exact ⟨auction, item, itemGuid, listed, new, houseEntry, ⟨entry.symm, entry.trans moved.entry⟩,
    ⟨count.symm, count.trans moved.count⟩⟩

/-- The units of the offered stacks, when they are of one template or all are counted. -/
theorem sum_of_one_kind {offered : List OfferedItem} {kind : Nat → Bool} {entry : Nat}
    (same : ∀ stack ∈ offered, kind stack.item.entry = kind entry)
    : (offered.map (fun stack => if kind stack.item.entry then (stack.count : Int) else 0)).sum
      = if kind entry then (((offered.map OfferedItem.count).sum : Nat) : Int) else 0 := by
  induction offered with
  | nil => simp
  | cons first rest ih =>
      obtain ⟨here, others⟩ := List.forall_mem_cons.mp same
      rw [List.map_cons, List.sum_cons, ih others, here]
      split <;> simp

/-- The item of a listing is under a guid that no live auction has. -/
theorem ListedAs.apart {auction : AuctionEntry} {item : Item} {itemGuid : Nat} (sound : Sound world)
    (listing
      : ListedAs config world turn player money packet offer deposit auction item itemGuid)
    (after : Sound (world.list config turn.now player packet offer deposit))
    {house : AuctionHouses} {id : Nat} {other : AuctionEntry}
    (found : world.getAuction house id = some other)
    : other.itemGuid ≠ auction.itemGuid := by
  intro same
  rw [listing.listed] at after
  have issued := sound.issued _ _ _ found
  have still := @getAuction_listed world offer.house auction (sound.unissued offer.house) item
    (world.money.modify player (fun money => money - deposit))
    (offer.offered.foldl bagsWithout world.carried) itemGuid house id
  rw [if_neg (fun new => by omega), found] at still
  have new := @getAuction_listed world offer.house auction (sound.unissued offer.house) item
    (world.money.modify player (fun money => money - deposit))
    (offer.offered.foldl bagsWithout world.carried) itemGuid offer.house world.auctionId
  rw [if_pos ⟨rfl, rfl⟩] at new
  have one := after.oneAuction _ _ _ _ _ _ still new same
  omega

/-- A listing is a posting of the packet. -/
theorem OfferArrives.posted (sound : Sound world)
    (arrives : OfferArrives config world turn player money deposit packet offer)
    (after : Sound (world.list config turn.now player packet offer deposit))
    : ∃ auction, Posted config world player packet
        { world := world.list config turn.now player packet offer deposit,
          replies := [{ auctionID := world.auctionId, action := .sellItem, errorCode := .ok }] }
        offer.house auction money := by
  obtain ⟨creature, request, accepted⟩ := arrives.request
  obtain ⟨collected, distinct⟩ := checkOffer_collected accepted
  obtain ⟨packet_eq, found⟩ := collectItems_collected collected
  obtain ⟨auction, item, itemGuid, listing⟩ := arrives.listedAs sound
  have stack_of (asked : Nat × Nat) (member : asked ∈ packet.items)
      : ∃ stack ∈ offer.offered, (stack.guid, stack.count) = asked := by
    rw [← packet_eq] at member
    exact List.mem_map.mp member
  have guids : packet.items.map Prod.fst = offer.offered.map OfferedItem.guid := by
    rw [← packet_eq, List.map_map]
    rfl
  have counts : packet.items.map Prod.snd = offer.offered.map OfferedItem.count := by
    rw [← packet_eq, List.map_map]
    rfl
  have apart {house : AuctionHouses} {id : Nat} {other : AuctionEntry}
      (live : world.getAuction house id = some other) := listing.apart sound after live
  have absent : world.items.get? auction.itemGuid = none := by
    cases stored : world.items.get? auction.itemGuid with
    | none => rfl
    | some already =>
        obtain ⟨-, house, id, other, live, same⟩ := sound.auctioned _ _ stored
        exact absurd same (apart live)
  have emptied := foldl_bagsWithout player world.carried (guids ▸ distinct)
    (fun stack member => ⟨(found stack member).carried, (found stack member).enough⟩)
  have unitsAfter (kind : Nat → Bool)
      (same : ∀ stack ∈ offer.offered, kind stack.item.entry = kind offer.first.item.entry)
      : (world.list config turn.now player packet offer deposit).units player kind
        = world.units player kind := by
    rw [listing.listed, houses_listed offer.house auction sound.unissued, emptied.units,
      sum_of_one_kind same, listing.new.owner, listing.entry.2, listing.count.2,
      Offer.finalCount_eq]
    unfold AuctionWorld.units AuctionWorld.carriedUnits
    by_cases counted : kind offer.first.item.entry = true
    · simp only [counted, if_true, and_self]
      omega
    · simp only [counted, true_and, Bool.false_eq_true, if_false]
      omega
  have newest := @getAuction_listed world offer.house auction (sound.unissued offer.house) item
    (world.money.modify player (fun money => money - deposit))
    (offer.offered.foldl bagsWithout world.carried) itemGuid
  refine ⟨auction, ?_⟩
  constructor
  case replied => rfl
  case distinct => exact distinct
  case unauctioned =>
    intro asked member house id other live same
    obtain ⟨stack, inOffer, rfl⟩ := stack_of asked member
    have resolved := sound.resolved _ _ _ live
    rw [same, (found stack inOffer).unauctioned] at resolved
    simp at resolved
  case deposit =>
    refine ⟨(offer.first.guid, offer.first.count), _, ?_,
      (found offer.first List.mem_cons_self).carried, listing.entry.2.symm, ?_⟩
    · rw [← packet_eq]
      rfl
    · rw [listing.new.deposit, arrives.charged, listing.houseEntry, listing.count.2]
  case purse => exact arrives.purse
  case afforded =>
    rw [listing.new.deposit]
    exact arrives.enough
  case charged =>
    intro other
    simp only [listing.listed, listing.new.deposit]
    change (world.money.modify player (fun money => money - deposit)).get? other = _
    rw [Table.get?_modify]
    split
    · rename_i here
      rw [here, arrives.purse, Option.map_some]
    · rfl
  case added =>
    simp only [listing.listed]
    exact newest
  case asked =>
    exact ⟨listing.new.owner, listing.new.startBid, listing.new.buyOut, listing.new.bid,
      listing.new.bidder⟩
  case counted => rw [listing.count.2, Offer.finalCount_eq, counts]
  case item =>
    refine ⟨item, ?_, listing.entry.1, listing.count.1⟩
    simp only [listing.listed]
    change (world.items.emplace auction.itemGuid item).get? auction.itemGuid = some item
    rw [Table.get?_emplace, if_pos rfl, absent, Option.getD_none]
  case onlyThere =>
    refine ⟨?_, fun house id other live => apart live⟩
    rw [listing.listed] at after ⊢
    have live := newest offer.house world.auctionId
    rw [if_pos ⟨rfl, rfl⟩] at live
    exact (after.notInBags live).1
  case taken =>
    intro asked member
    obtain ⟨stack, inOffer, rfl⟩ := stack_of asked member
    refine ⟨_, (found stack inOffer).carried, rfl, (found stack inOffer).enough, ?_⟩
    simp only [listing.listed]
    exact emptied.taken stack inOffer
  case kept =>
    intro guid others
    simp only [listing.listed]
    exact emptied.kept guid (guids ▸ others)
  case units => exact unitsAfter _ (fun _ _ => rfl)
  case kinds =>
    intro real kind
    obtain ⟨entry, -, same⟩ := collectItems_one_kind collected
      (fun stack member => real _ _ (found stack member).carried)
    refine unitsAfter kind (fun stack member => ?_)
    rw [same stack member, same offer.first List.mem_cons_self]

/-- After any turns from empty houses, a sell request posts all of its packet or nothing. -/
theorem sell_posts_all_or_nothing (config : Config) (start : AuctionWorld) (opened : Opened start)
    (turns : List Turn) (turn : Turn) (player : Nat) (packet : AuctionSellItem)
    (creature : Option Creature) (request : turn.request = .sellItem player packet creature)
    : Unposted (run (step config) start turns)
          (handle config (run (step config) start turns) turn)
        ∨ ∃ house auction money, Posted config (run (step config) start turns) player packet
            (handle config (run (step config) start turns) turn) house auction money := by
  have preserved (world : AuctionWorld) (turn : Turn) (sound : Sound world) (_ : True)
      : Sound (step config world turn) := sound.step turn
  have sound : Sound (run (step config) start turns) :=
    run_of_invariant preserved opened.sound (eachStep_of_forall (fun _ _ => trivial) start turns)
  generalize run (step config) start turns = world at sound ⊢
  have effect := handle_effect config world turn
  have after : Sound (handle config world turn).world := sound.step turn
  generalize handle config world turn = handled at effect after ⊢
  cases effect with
  | nothing refused stopped => exact .inl ⟨rfl, refused⟩
  | listed arrives =>
      obtain ⟨auction, posted⟩ := arrives.posted sound after
      obtain ⟨other, same, -⟩ := arrives.request
      rw [request] at same
      cases same
      exact .inr ⟨_, auction, _, posted⟩
  | bid arrives increment enough below =>
      obtain ⟨account, other, same, -⟩ := arrives.request
      rw [request] at same
      cases same
  | boughtOut arrives enough below =>
      obtain ⟨account, other, same, -⟩ := arrives.request
      rw [request] at same
      cases same
  | canceled arrives =>
      obtain ⟨other, same, -⟩ := arrives.request
      rw [request] at same
      cases same
  | updated running same =>
      rw [request] at same
      cases same

end Atomicity

/-- The only item of the first player is posted. -/
theorem sell_posts_all_or_nothing_applied
    : Unposted (run (step smallConfig) smallMarket [smallBid 2 100])
          (handle smallConfig (run (step smallConfig) smallMarket [smallBid 2 100]) (smallOffer 0))
        ∨ ∃ house auction money, Posted smallConfig
            (run (step smallConfig) smallMarket [smallBid 2 100]) 1
            { items := [(1, 1)], expireTime := 720, bid := 100, buyout := 0 }
            (handle smallConfig (run (step smallConfig) smallMarket [smallBid 2 100])
              (smallOffer 0)) house auction money :=
  sell_posts_all_or_nothing smallConfig smallMarket smallMarket_opened _ (smallOffer 0) 1 _
    (some { faction := none }) rfl

end WarheadCore.Auction
