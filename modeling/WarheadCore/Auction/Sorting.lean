import WarheadCore.Auction.State
import WarheadCore.Foundation.Comparators

/-! SortAuction, the comparator for the auctions that a client searches. -/

namespace WarheadCore.Auction

open Std Foundation.Comparators

/-- The bytes of a name; `std::string::compare` orders them as unsigned numbers. -/
abbrev Name := List UInt8

/-- AuctionSortOrder; a client may send any other byte. -/
inductive AuctionSortOrder where
  | minLevel | rarity | buyOut | timeLeft | unk4 | item | minBidBuy | owner | bid | stack | buyOut2
  | max
  | other (sortMode : UInt8)
deriving DecidableEq

structure AuctionSortInfo where
  sortOrder : AuctionSortOrder := .max
  isDesc : Bool := true
deriving DecidableEq

structure ItemTemplate where
  itemId : Nat
  name1 : Name
  quality : Nat
  requiredLevel : Nat

/-- Where SortAuction looks things up; the locale is that of the player's session. -/
structure SortSources where
  getItemTemplate : Nat → Option ItemTemplate
  getItemLocale : Nat → Option (List Name)
  getCharacterNameByGuid : Nat → Option Name
  locale : Nat

namespace SortSources

variable (sources : SortSources)

def getLocaleString (data : List Name) (locale : Nat) (value : Name) : Name :=
  match data[locale]? with
  | some localized => if localized = [] then value else localized
  | none => value

/-- The name by which an item is sorted; there is none without a template or with an empty name. -/
def itemName (auction : AuctionEntry) : Option Name :=
  match sources.getItemTemplate auction.itemID with
  | none => none
  | some proto =>
      if proto.name1 = [] then none
      else if sources.locale > 0 then
        match sources.getItemLocale proto.itemId with
        | some names => some (getLocaleString names sources.locale proto.name1)
        | none => some proto.name1
      else some proto.name1

def requiredLevel (auction : AuctionEntry) : Option Nat :=
  (sources.getItemTemplate auction.itemID).map ItemTemplate.requiredLevel

def quality (auction : AuctionEntry) : Option Nat :=
  (sources.getItemTemplate auction.itemID).map ItemTemplate.quality

/-- The name of the owner, which stays empty for a character that is not cached. -/
def ownerName (auction : AuctionEntry) : Name :=
  (sources.getCharacterNameByGuid auction.playerOwner).getD []

/-- One case of SortAuction, in ascending direction; it continues with the next order on a tie. -/
def compareBy (checkMinBidBuyout : Bool)
    : AuctionSortOrder → AuctionEntry → AuctionEntry → Ordering
  | .bid =>
      if checkMinBidBuyout then
        chain [compareOn AuctionEntry.bid, compareOn AuctionEntry.buyOut,
          compareOn AuctionEntry.startBid]
      else compareOn AuctionEntry.bid
  | .buyOut | .buyOut2 => compareOn AuctionEntry.buyOut
  | .item => optional sources.itemName
  | .minLevel => optional sources.requiredLevel
  | .owner => compareOn sources.ownerName
  | .rarity => optional sources.quality
  | .stack => compareOn AuctionEntry.itemCount
  | .timeLeft => compareOn AuctionEntry.expireTime
  | .minBidBuy => chain [compareOn AuctionEntry.buyOut, compareOn AuctionEntry.startBid]
  | .max | .unk4 | .other _ => fun _ _ => .eq

def sortAuction (checkMinBidBuyout : Bool) (left right : AuctionEntry)
    : List AuctionSortInfo → Bool
  | [] => false
  | order :: rest =>
      match directed order.isDesc (sources.compareBy checkMinBidBuyout order.sortOrder) left right
        with
      | .eq => sortAuction checkMinBidBuyout left right rest
      | .lt => true
      | .gt => false

/-- The keys that an auction can lack, and what the others have for them. -/
def SettledOn (auctions : Set AuctionEntry) : AuctionSortOrder → Prop
  | .item => Settled fun auction : auctions => sources.itemName auction
  | .minLevel => Settled fun auction : auctions => sources.requiredLevel auction
  | .rarity => Settled fun auction : auctions => sources.quality auction
  | _ => True

/-- SortAuction is the chain of its orders. -/
theorem sortAuction_iff (checkMinBidBuyout : Bool) (left right : AuctionEntry)
    (sortOrder : List AuctionSortInfo)
    : sources.sortAuction checkMinBidBuyout left right sortOrder = true
      ↔ chain (sortOrder.map (fun order =>
          directed order.isDesc (sources.compareBy checkMinBidBuyout order.sortOrder))) left right
        = .lt := by
  induction sortOrder with
  | nil => simp [sortAuction, chain]
  | cons order rest ih =>
      simp only [sortAuction, List.map_cons, chain]
      cases directed order.isDesc (sources.compareBy checkMinBidBuyout order.sortOrder) left right
        with
      | lt => simp
      | eq => simpa using ih
      | gt => simp

/-- Each order is transitive on auctions that are settled for it. -/
theorem transCmp_compareBy (checkMinBidBuyout : Bool) {auctions : Set AuctionEntry}
    {order : AuctionSortOrder} (settled : sources.SettledOn auctions order)
    : TransCmp (fun left right : auctions =>
        sources.compareBy checkMinBidBuyout order left right) := by
  cases order with
  | item => exact transCmp_optional settled
  | minLevel => exact transCmp_optional settled
  | rarity => exact transCmp_optional settled
  | bid =>
      apply transCmp_on _ Subtype.val
      cases checkMinBidBuyout with
      | false => exact inferInstanceAs (TransCmp (compareOn AuctionEntry.bid))
      | true =>
          refine transCmp_chain (fun cmp member => ?_)
          simp only [List.mem_cons, List.not_mem_nil, or_false] at member
          rcases member with rfl | rfl | rfl <;> infer_instance
  | minBidBuy =>
      apply transCmp_on _ Subtype.val
      refine transCmp_chain (fun cmp member => ?_)
      simp only [List.mem_cons, List.not_mem_nil, or_false] at member
      rcases member with rfl | rfl <;> infer_instance
  | buyOut => exact transCmp_on (inferInstanceAs (TransCmp (compareOn AuctionEntry.buyOut))) _
  | buyOut2 => exact transCmp_on (inferInstanceAs (TransCmp (compareOn AuctionEntry.buyOut))) _
  | timeLeft => exact transCmp_on (inferInstanceAs (TransCmp (compareOn AuctionEntry.expireTime))) _
  | stack => exact transCmp_on (inferInstanceAs (TransCmp (compareOn AuctionEntry.itemCount))) _
  | owner => exact transCmp_on (inferInstanceAs (TransCmp (compareOn sources.ownerName))) _
  | unk4 => exact transCmp_tied
  | max => exact transCmp_tied
  | other => exact transCmp_tied

/-- With orders that the auctions are settled for, SortAuction is a strict weak ordering of them. -/
theorem sortAuction_isStrictWeakOrder (checkMinBidBuyout : Bool) {auctions : Set AuctionEntry}
    {sortOrder : List AuctionSortInfo}
    (settled : ∀ order ∈ sortOrder, sources.SettledOn auctions order.sortOrder)
    : IsStrictWeakOrder auctions (fun left right =>
        sources.sortAuction checkMinBidBuyout left right sortOrder = true) := by
  have transitive
      : TransCmp (chain (sortOrder.map (fun order (left right : auctions) =>
          directed order.isDesc (sources.compareBy checkMinBidBuyout order.sortOrder) left
            right))) := by
    refine transCmp_chain (fun cmp member => ?_)
    obtain ⟨order, listed, rfl⟩ := List.mem_map.mp member
    have each := sources.transCmp_compareBy checkMinBidBuyout (settled order listed)
    exact transCmp_directed each order.isDesc
  have ordered := isStrictWeakOrder_of_transCmp transitive
  have same : (fun left right : auctions =>
        sources.sortAuction checkMinBidBuyout left right sortOrder = true)
      = fun left right => chain (sortOrder.map (fun order (left right : auctions) =>
          directed order.isDesc (sources.compareBy checkMinBidBuyout order.sortOrder) left right))
          left right = .lt := by
    funext left right
    rw [sortAuction_iff, chain_on Subtype.val, List.map_map]
    rfl
  rwa [same]

/-- A single order that SortAuction sorts by is settled. -/
theorem settledOn_of_isStrictWeakOrder (checkMinBidBuyout : Bool) {auctions : Set AuctionEntry}
    {order : AuctionSortInfo}
    (ordered : IsStrictWeakOrder auctions (fun left right =>
      sources.sortAuction checkMinBidBuyout left right [order] = true))
    : sources.SettledOn auctions order.sortOrder := by
  have same : (fun left right : auctions =>
        sources.sortAuction checkMinBidBuyout left right [order] = true)
      = fun left right => directed order.isDesc (fun left right : auctions =>
          sources.compareBy checkMinBidBuyout order.sortOrder left right) left right = .lt := by
    funext left right
    rw [sortAuction_iff]
    simp [chain, directed]
  rw [same] at ordered
  obtain ⟨sortOrder, isDesc⟩ := order
  cases sortOrder with
  | item => exact settled_of_isStrictWeakOrder ordered
  | minLevel => exact settled_of_isStrictWeakOrder ordered
  | rarity => exact settled_of_isStrictWeakOrder ordered
  | buyOut | timeLeft | unk4 | minBidBuy | owner | bid | stack | buyOut2 | max | other => trivial

end SortSources

/-- SortAuction is a strict weak ordering of a set of auctions for every list of orders if and only
if, for each of the keys that an auction can lack (its name, its required level, its rarity), all of
them have it or those that have it agree.
-/
theorem sortAuction_orders_iff (sources : SortSources) (checkMinBidBuyout : Bool)
    (auctions : Set AuctionEntry)
    : (∀ sortOrder, IsStrictWeakOrder auctions (fun left right =>
        sources.sortAuction checkMinBidBuyout left right sortOrder = true))
      ↔ ∀ order, sources.SettledOn auctions order := by
  constructor
  · intro ordered order
    exact sources.settledOn_of_isStrictWeakOrder checkMinBidBuyout
      (ordered [{ sortOrder := order, isDesc := false }])
  · intro settled sortOrder
    exact sources.sortAuction_isStrictWeakOrder checkMinBidBuyout (fun order _ => settled _)

def stackOf (itemID itemCount : Nat) : AuctionEntry :=
  { itemGuid := itemID, itemID, itemCount, playerOwner := 1, startBid := 1, buyOut := 0
    expireTime := 0, deposit := 0, auctionHouseEntry := { cutPercent := 5, depositPercent := 5 } }

/-- Three items: the first and the last have names, the second has an empty one. -/
def partlyNamed : SortSources where
  getItemTemplate itemID :=
    some { itemId := itemID, name1 := if itemID = 2 then [] else [UInt8.ofNat itemID]
           quality := 1, requiredLevel := 1 }
  getItemLocale _ := none
  getCharacterNameByGuid _ := none
  locale := 0

/-- By name and stack, the first is before the last, that before the unnamed one, and that before
the first.
-/
theorem partly_named_items_go_around
    : ¬IsStrictWeakOrder ({stackOf 1 3, stackOf 2 2, stackOf 3 1} : Set AuctionEntry)
        (fun left right => partlyNamed.sortAuction false left right
          [{ sortOrder := .item, isDesc := false }, { sortOrder := .stack, isDesc := false }]
            = true) := by
  intro ordered
  let first : ({stackOf 1 3, stackOf 2 2, stackOf 3 1} : Set AuctionEntry) := ⟨stackOf 1 3, by simp⟩
  let unnamed : ({stackOf 1 3, stackOf 2 2, stackOf 3 1} : Set AuctionEntry) :=
    ⟨stackOf 2 2, by simp⟩
  let last : ({stackOf 1 3, stackOf 2 2, stackOf 3 1} : Set AuctionEntry) := ⟨stackOf 3 1, by simp⟩
  have around := ordered.trans first last unnamed (by decide +kernel) (by decide +kernel)
  exact ordered.irrefl first (ordered.trans first unnamed first around (by decide +kernel))

end WarheadCore.Auction
