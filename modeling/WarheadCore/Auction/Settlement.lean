import WarheadCore.Auction.Soundness

/-! Where the item of an auction goes, and that it goes there once.
A live auction's item is in the item map and nowhere else; a settlement moves it into one mail or
deletes it, and no later turn touches it again.
-/

namespace WarheadCore.Auction

open Foundation Foundation.Runs WarheadCore.Player

-- The places of an item

def AuctionWorld.itemMails (world : AuctionWorld) (guid : Nat) : List AuctionMail :=
  world.mails.filter (fun mail => mail.item = some guid)

def AuctionWorld.deletions (world : AuctionWorld) (guid : Nat) : List Nat :=
  world.deletedItems.filter (fun other => other = guid)

structure InStep (world : AuctionWorld) : Prop where
  resolved : ∀ house id auction, world.getAuction house id = some auction
    → (world.getAuctionItem auction.itemGuid).isSome = true
  auctioned : ∀ guid item, world.getAuctionItem guid = some item
    → ∃ house id auction, world.getAuction house id = some auction ∧ auction.itemGuid = guid
  oneAuction : ∀ house house' id id' auction auction', world.getAuction house id = some auction
    → world.getAuction house' id' = some auction'
    → auction.itemGuid = auction'.itemGuid ∨ id = id' → house = house' ∧ id = id'

def lastBidder (turn : Turn) (auction : AuctionEntry) : Option Nat :=
  match turn.request with
  | .placeBid player _ _ _ _ => some player
  | _ => auction.bidder

/-- The three ends of an item: the winner's mail, the owner's mail, or deletion because the
character it was meant for is gone.
-/
inductive Disposed (characters : Characters) (owner : Nat) (bidder : Option Nat) (guid : Nat)
    : List AuctionMail → List Nat → Prop where
  | winner {mail : AuctionMail} (won : mail.response = .won) (receiver : bidder = some mail.receiver)
      (item : mail.item = some guid)
      : Disposed characters owner bidder guid [mail] []
  | owner {mail : AuctionMail}
      (returned : mail.response = .canceled ∨ (mail.response = .expired ∧ bidder = none))
      (receiver : mail.receiver = owner) (item : mail.item = some guid)
      : Disposed characters owner bidder guid [mail] []
  | destroyed (gone : characters.present (bidder.getD owner) = false)
      : Disposed characters owner bidder guid [] [guid]

/-- An auction that is over: it is in no house, and its item in neither map. -/
structure Over (world : AuctionWorld) (id guid : Nat) (sent : List AuctionMail)
    (deleted : List Nat) : Prop where
  issued : id < world.auctionId
  notLive : ∀ house, world.getAuction house id = none
  gone : world.Gone guid
  sent : world.itemMails guid = sent
  deleted : world.deletions guid = deleted

section Places

variable {config : Config} {characters : Characters} {world : AuctionWorld} {turn : Turn}
  {house : AuctionHouses} {id : Nat} {auction : AuctionEntry}

theorem Sound.inStep (sound : Sound world)
    : InStep world where
  resolved := sound.resolved
  auctioned guid item stored := (sound.auctioned guid item stored).2
  oneAuction house house' id id' auction auction' found found' same := by
    have ids : id = id' := by
      rcases same with guids | ids
      · exact sound.oneAuction _ _ _ _ _ _ found found' guids
      · exact ids
    subst ids
    exact ⟨sound.oneHouse _ _ _ _ _ found found', rfl⟩

/-- The item of a live auction is in no mail and not deleted. -/
theorem Sound.nowhere (sound : Sound world) (found : world.getAuction house id = some auction)
    : world.itemMails auction.itemGuid = [] ∧ world.deletions auction.itemGuid = [] := by
  have stored := sound.resolved _ _ _ found
  constructor
  · refine List.filter_eq_nil_iff.mpr (fun mail member carries => ?_)
    have absent := (sound.mailed mail member _ (by simpa using carries)).2.1
    rw [absent] at stored
    simp at stored
  · refine List.filter_eq_nil_iff.mpr (fun guid member same => ?_)
    have absent := (sound.deleted guid member).2.1
    rw [show guid = auction.itemGuid by simpa using same] at absent
    rw [absent] at stored
    simp at stored

theorem itemMails_append (guid : Nat) (first later : List AuctionMail)
    (noItem : ∀ mail ∈ later, mail.item ≠ some guid)
    : (first ++ later).filter (fun mail => mail.item = some guid)
      = first.filter (fun mail => mail.item = some guid) := by
  have none : later.filter (fun mail => mail.item = some guid) = [] :=
    List.filter_eq_nil_iff.mpr (fun mail member => by simpa using noItem mail member)
  rw [List.filter_append, none, List.append_nil]

/-- Settling a live auction ends it, and sends its item or deletes it. -/
theorem Sound.over_of_settles (sound : Sound world) (found : world.getAuction house id = some auction)
    {after : AuctionWorld} {mail : AuctionMail}
    (settles : Settles characters world after house id auction mail)
    : Over after id auction.itemGuid
        (characters.delivered { mail with item := some auction.itemGuid })
        (if characters.present mail.receiver then [] else [auction.itemGuid]) := by
  obtain ⟨purses, notes, rfl, bounded, money⟩ := settles
  constructor
  case issued => exact sound.issued _ _ _ found
  case notLive =>
    intro house'
    rw [getAuction_settled]
    split
    · rfl
    · rename_i elsewhere
      cases found' : world.getAuction house' id with
      | none => rfl
      | some auction' => exact absurd ⟨sound.oneHouse _ _ _ _ _ found' found, rfl⟩ elsewhere
  case gone =>
    exact ⟨(sound.notInBags found).1, Table.get?_remove_self _ _, (sound.notInBags found).2⟩
  case sent =>
    have before := (sound.nowhere found).1
    unfold AuctionWorld.itemMails at before ⊢
    change ((world.mails ++ notes) ++ _).filter _ = _
    rw [List.filter_append, itemMails_append _ _ _ (fun note member => by simp [money note member]),
      before]
    unfold Characters.delivered
    split <;> simp
  case deleted =>
    have before := (sound.nowhere found).2
    unfold AuctionWorld.deletions at before ⊢
    change (world.deletedItems ++ _).filter _ = _
    rw [List.filter_append, before]
    split <;> simp

/-- Settling another auction leaves one that is over as it is. -/
theorem Over.of_settles {guid : Nat} {sent : List AuctionMail} {deleted : List Nat}
    (ended : Over world id guid sent deleted) (sound : Sound world) {house' : AuctionHouses}
    {id' : Nat} {auction' : AuctionEntry} (found : world.getAuction house' id' = some auction')
    {after : AuctionWorld} {mail : AuctionMail}
    (settles : Settles characters world after house' id' auction' mail)
    : Over after id guid sent deleted := by
  obtain ⟨purses, notes, rfl, bounded, money⟩ := settles
  have different : auction'.itemGuid ≠ guid := by
    intro same
    have stored := sound.resolved _ _ _ found
    rw [same, ended.gone.2.1] at stored
    simp at stored
  constructor
  case issued => exact ended.issued
  case notLive =>
    intro house
    rw [getAuction_settled, ended.notLive]
    simp
  case gone => exact gone_settled ended.gone _ _ _ _
  case sent =>
    have before := ended.sent
    unfold AuctionWorld.itemMails at before ⊢
    change ((world.mails ++ notes) ++ _).filter _ = _
    rw [itemMails_append, itemMails_append _ _ _ (fun note member => by simp [money note member]),
      before]
    intro itemMail member
    unfold Characters.delivered at member
    split at member
    · obtain rfl := List.mem_singleton.mp member
      simpa using different
    · simp at member
  case deleted =>
    have before := ended.deleted
    unfold AuctionWorld.deletions at before ⊢
    change (world.deletedItems ++ _).filter _ = _
    rw [List.filter_append, before]
    split <;> simp [different]

/-- A bid leaves an auction that is over as it is. -/
theorem Over.rebid {guid : Nat} {sent : List AuctionMail} {deleted : List Nat}
    (ended : Over world id guid sent deleted) {house' : AuctionHouses} {id' player price : Nat}
    {auction' : AuctionEntry} (found : world.getAuction house' id' = some auction')
    : Over (world.rebid config characters house' id' auction' player price) id guid sent deleted where
  issued := ended.issued
  notLive house := by
    rw [getAuction_rebid found, if_neg, ended.notLive]
    rintro ⟨rfl, rfl⟩
    rw [ended.notLive] at found
    simp at found
  gone := ended.gone
  sent := by
    have before := ended.sent
    unfold AuctionWorld.itemMails at before ⊢
    change (world.mails ++ _).filter _ = _
    rw [itemMails_append _ _ _ (fun mail member => by simp [refunds_item member]), before]
  deleted := ended.deleted

/-- A listing leaves an auction that is over as it is. -/
theorem Over.listed {guid : Nat} {sent : List AuctionMail} {deleted : List Nat}
    (ended : Over world id guid sent deleted) (sound : Sound world) {house' : AuctionHouses}
    {auction' : AuctionEntry} {item : Item} {purses : Table Nat Nat}
    {carried : Table Nat CarriedItem} {itemGuid : Nat}
    (taken : AuctionWorld.TakenFromBags world carried itemGuid auction'.itemGuid)
    : Over (world.listed house' auction' item purses carried itemGuid) id guid sent deleted where
  issued := Nat.lt_succ_of_lt ended.issued
  notLive house := by
    rw [getAuction_listed (sound.unissued house'), if_neg, ended.notLive]
    rintro ⟨_, same⟩
    exact absurd ended.issued (by omega)
  gone := sound.gone_listed taken ended.gone item purses
  sent := ended.sent
  deleted := ended.deleted

/-- Expiring another auction leaves one that is over as it is. -/
theorem Over.expire {guid : Nat} {sent : List AuctionMail} {deleted : List Nat}
    (ended : Over world id guid sent deleted) (sound : Sound world)
    {due : AuctionWorld.DueAuction} (standing : world.Standing due)
    : Over (world.expire config characters due) id guid sent deleted :=
  ended.of_settles sound standing (sound.expire_settles standing)

/-- Expiring auctions leaves one that is over as it is. -/
theorem Over.run_expire {guid : Nat} {sent : List AuctionMail} {deleted : List Nat}
    (ended : Over world id guid sent deleted) (sound : Sound world)
    {dues : List AuctionWorld.DueAuction}
    (standing : EachStep (AuctionWorld.expire config characters)
      (fun world due => world.Standing due) world dues)
    : Over (run (AuctionWorld.expire config characters) world dues) id guid sent deleted := by
  have preserved (world : AuctionWorld) (due : AuctionWorld.DueAuction)
      (both : Sound world ∧ Over world id guid sent deleted) (standing : world.Standing due)
      : Sound (world.expire config characters due)
          ∧ Over (world.expire config characters due) id guid sent deleted :=
    ⟨both.1.expire standing, both.2.expire both.1 standing⟩
  exact (run_of_invariant preserved ⟨sound, ended⟩ standing).2

/-- No turn touches an auction that is over. -/
theorem Over.step {guid : Nat} {sent : List AuctionMail} {deleted : List Nat}
    (ended : Over world id guid sent deleted) (sound : Sound world) (turn : Turn)
    : Over (step config world turn) id guid sent deleted := by
  have effect := handle_effect config world turn
  unfold Auction.step
  generalize handle config world turn = handled at effect
  cases effect with
  | nothing refused stopped => exact ended
  | listed arrives =>
      obtain ⟨creature, _, offered⟩ := arrives.request
      obtain ⟨auction, item, carried, itemGuid, equal, new, taken⟩ :=
        AuctionWorld.list_eq turn.now offered arrives.purse (sound.purses _ _ arrives.purse)
          arrives.enough
      simp only [equal]
      exact ended.listed sound taken
  | bid arrives increment enough below =>
      simp only [arrives.acceptBid_eq sound increment enough below]
      exact ended.rebid arrives.found
  | boughtOut arrives enough below =>
      exact ended.of_settles sound arrives.found (arrives.settles sound enough below)
  | canceled arrives => exact ended.of_settles sound arrives.found (arrives.settles sound)
  | updated running request =>
      simp only [AuctionWorld.update_eq]
      exact ended.run_expire sound (sound.due_standing turn.now)

/-- The item mail of a settlement is the winner's or the owner's, or its receiver is gone. -/
theorem disposed_of_mail {owner guid : Nat} {bidder : Option Nat} {mail : AuctionMail}
    (meant : (mail.response = .won ∧ bidder = some mail.receiver)
      ∨ (mail.response = .canceled ∧ mail.receiver = owner
        ∧ characters.present mail.receiver = true)
      ∨ (mail.response = .expired ∧ bidder = none ∧ mail.receiver = owner))
    : Disposed characters owner bidder guid
        (characters.delivered { mail with item := some guid })
        (if characters.present mail.receiver then [] else [guid]) := by
  unfold Characters.delivered
  by_cases present : characters.present mail.receiver = true
  · rw [if_pos present, if_pos present]
    rcases meant with ⟨won, receiver⟩ | ⟨canceled, receiver, _⟩ | ⟨expired, unsold, receiver⟩
    · exact .winner won receiver rfl
    · exact .owner (.inl canceled) receiver rfl
    · exact .owner (.inr ⟨expired, unsold⟩) receiver rfl
  · rw [if_neg present, if_neg present]
    have gone : characters.present mail.receiver = false := by simpa using present
    rcases meant with ⟨_, receiver⟩ | ⟨_, _, there⟩ | ⟨_, unsold, receiver⟩
    · exact .destroyed (by rw [receiver]; exact gone)
    · exact absurd there present
    · exact .destroyed (by rw [unsold, ← receiver]; exact gone)

/-- Expiring an auction ends it, and disposes of its item. -/
private theorem expire_over (sound : Sound world) (found : world.getAuction house id = some auction)
    : ∃ sent deleted,
      Over (world.expire config characters ⟨house, id, auction⟩) id auction.itemGuid sent deleted
        ∧ Disposed characters auction.playerOwner auction.bidder auction.itemGuid sent deleted := by
  refine ⟨_, _, sound.over_of_settles found (sound.expire_settles found), disposed_of_mail ?_⟩
  cases bidder : auction.bidder with
  | none => exact .inr (.inr ⟨rfl, rfl, rfl⟩)
  | some winner => exact .inl ⟨rfl, rfl⟩

/-- An auction that is not due is still there after an update. -/
private theorem live_run_expire (sound : Sound world) {dues : List AuctionWorld.DueAuction}
    (standing : EachStep (AuctionWorld.expire config characters)
      (fun world due => world.Standing due) world dues)
    (other : ∀ due ∈ dues, id ≠ due.id)
    : (run (AuctionWorld.expire config characters) world dues).getAuction house id
      = world.getAuction house id := by
  induction dues generalizing world with
  | nil => rfl
  | cons due rest ih =>
      obtain ⟨purses, notes, equal, _, _⟩ := @Sound.expire_settles config characters world due.house
        due.id due.auction sound standing.1
      rw [run_cons, ih (sound.expire standing.1) standing.2
        (fun later member => other later (List.mem_cons_of_mem _ member))]
      rw [equal, getAuction_settled, if_neg]
      rintro ⟨_, same⟩
      exact other due List.mem_cons_self same

/-- An update that takes an auction out of its house ends it, and disposes of its item. -/
private theorem update_over (sound : Sound world) (now : Int)
    (found : world.getAuction house id = some auction)
    (removed : (world.update config characters now).getAuction house id = none)
    : ∃ sent deleted, Over (world.update config characters now) id auction.itemGuid sent deleted
        ∧ Disposed characters auction.playerOwner auction.bidder auction.itemGuid sent deleted := by
  have standing := @Sound.due_standing config characters world sound now
  rw [AuctionWorld.update_eq] at removed ⊢
  by_cases expired : auction.expireTime ≤ now + 60
  · obtain ⟨first, later, split, _, _⟩ := sound.due_split found expired
    rw [split] at standing ⊢
    obtain ⟨standingFirst, here, standingLater⟩ := eachStep_append.mp standing
    have preserved (world : AuctionWorld) (due : AuctionWorld.DueAuction) (sound : Sound world)
        (standing : world.Standing due)
        : Sound (world.expire config characters due) := sound.expire standing
    have sound' := run_of_invariant preserved sound standingFirst
    obtain ⟨sent, deleted, ended, disposed⟩ :=
      @expire_over config characters _ house id auction sound' here
    refine ⟨sent, deleted, ?_, disposed⟩
    rw [run_append, run_cons]
    exact ended.run_expire (sound'.expire here) standingLater
  · have other (due : AuctionWorld.DueAuction) (member : due ∈ world.due now) : id ≠ due.id := by
      rintro rfl
      obtain ⟨stands, due'⟩ := due_member member
      obtain rfl := sound.oneHouse _ _ _ _ _ found stands
      have same : some auction = some due.auction := found.symm.trans stands
      rw [Option.some.inj same] at expired
      exact expired due'
    rw [live_run_expire sound standing other, found] at removed
    simp at removed

/-- A turn that takes an auction out of its house ends it, and disposes of its item. -/
theorem Sound.step_over (sound : Sound world) (found : world.getAuction house id = some auction)
    (removed : (Auction.step config world turn).getAuction house id = none)
    : ∃ sent deleted, Over (Auction.step config world turn) id auction.itemGuid sent deleted
        ∧ Disposed turn.characters auction.playerOwner (lastBidder turn auction) auction.itemGuid
            sent deleted := by
  have effect := handle_effect config world turn
  unfold Auction.step at removed ⊢
  generalize handle config world turn = handled at effect removed ⊢
  -- A settlement at one place takes the auction of that place only.
  have here {house' : AuctionHouses} {id' : Nat} {auction' : AuctionEntry} {mail : AuctionMail}
      {after : AuctionWorld} (found' : world.getAuction house' id' = some auction')
      (settles : Settles turn.characters world after house' id' auction' mail)
      (gone : after.getAuction house id = none)
      : house' = house ∧ id' = id ∧ auction' = auction := by
    obtain ⟨purses, notes, rfl, _, _⟩ := settles
    rw [getAuction_settled] at gone
    split at gone
    · rename_i same
      obtain ⟨rfl, rfl⟩ := same
      exact ⟨rfl, rfl, Option.some.inj (found'.symm.trans found)⟩
    · rw [found] at gone
      simp at gone
  cases effect with
  | nothing refused stopped =>
      rw [found] at removed
      simp at removed
  | listed arrives =>
      obtain ⟨creature, _, offered⟩ := arrives.request
      obtain ⟨auction', item, carried, itemGuid, equal, new, taken⟩ :=
        AuctionWorld.list_eq turn.now offered arrives.purse (sound.purses _ _ arrives.purse)
          arrives.enough
      simp only [equal] at removed
      rw [getAuction_listed (sound.unissued _), found] at removed
      split at removed <;> simp at removed
  | bid arrives increment enough below =>
      simp only [arrives.acceptBid_eq sound increment enough below] at removed
      rw [getAuction_rebid arrives.found, found] at removed
      split at removed <;> simp at removed
  | boughtOut arrives enough below =>
      have settles := arrives.settles sound enough below
      obtain ⟨rfl, rfl, rfl⟩ := here arrives.found settles removed
      obtain ⟨account, creature, request, _⟩ := arrives.request
      refine ⟨_, _, sound.over_of_settles found settles, disposed_of_mail (.inl ⟨rfl, ?_⟩)⟩
      unfold lastBidder
      rw [request]
      rfl
  | canceled arrives =>
      have settles := arrives.settles sound
      obtain ⟨rfl, rfl, rfl⟩ := here arrives.found settles removed
      refine ⟨_, _, sound.over_of_settles found settles,
        disposed_of_mail (.inr (.inl ⟨rfl, arrives.owner.symm, ?_⟩))⟩
      exact present_of_connected arrives.connected
  | updated running request =>
      have bidder : lastBidder turn auction = auction.bidder := by
        unfold lastBidder
        rw [request]
      rw [bidder]
      exact update_over sound turn.now found removed

end Places

-- Runs

/-- From empty houses, in every run: the houses and the item map stay in step; and an auction that
a turn takes out of its house is over from then on, with its item in one mail or deleted.
-/
theorem auctions_are_settled_once (config : Config) (start : AuctionWorld) (opened : Opened start)
    (turns : List Turn)
    : EachState (step config) InStep start turns
      ∧ ∀ first turn later, turns = first ++ turn :: later
        → ∀ house id auction,
          (run (step config) start first).getAuction house id = some auction
            → (run (step config) start (first ++ [turn])).getAuction house id = none
            → ∃ sent deleted,
              Disposed turn.characters auction.playerOwner (lastBidder turn auction)
                  auction.itemGuid sent deleted
                ∧ EachState (step config)
                    (fun world => Over world id auction.itemGuid sent deleted)
                    (run (step config) start (first ++ [turn])) later := by
  have preserved (world : AuctionWorld) (turn : Turn) (sound : Sound world) (_ : True)
      : Sound (step config world turn) := sound.step turn
  have always (world : AuctionWorld) (turns : List Turn)
      : EachStep (step config) (fun _ _ => True) world turns :=
    eachStep_of_forall (fun _ _ => trivial) world turns
  refine ⟨(eachState_of_invariant preserved opened.sound (always start turns)).imp
    (fun _ sound => sound.inStep), ?_⟩
  rintro first turn later rfl house id auction found removed
  have sound := run_of_invariant preserved opened.sound (always start first)
  rw [run_append] at removed ⊢
  obtain ⟨sent, deleted, ended, disposed⟩ := sound.step_over found removed
  refine ⟨sent, deleted, disposed, ?_⟩
  have kept (world : AuctionWorld) (turn : Turn)
      (both : Sound world ∧ Over world id auction.itemGuid sent deleted) (_ : True)
      : Sound (step config world turn)
          ∧ Over (step config world turn) id auction.itemGuid sent deleted :=
    ⟨both.1.step turn, both.2.step both.1 turn⟩
  exact (eachState_of_invariant kept ⟨sound.step turn, ended⟩ (always _ later)).imp
    (fun _ both => both.2)

/-- A buyout settles the auction of the first item, and a later bid does not find it. -/
theorem auctions_are_settled_once_applied
    : ∃ sent deleted, EachState (step smallConfig) (fun world => Over world 1 1 sent deleted)
        (run (step smallConfig) smallMarket [smallOffer 1000, smallBid 2 1000])
        [smallBid 3 1000] := by
  have listed : ((step smallConfig smallMarket (smallOffer 1000)).getAuction .neutral 1).map
      AuctionEntry.itemGuid = some 1 := by
    decide +kernel
  have sold : ((run (step smallConfig) smallMarket
      [smallOffer 1000, smallBid 2 1000]).getAuction .neutral 1).isNone = true := by
    decide +kernel
  obtain ⟨auction, found, guid⟩ := Option.map_eq_some_iff.mp listed
  obtain ⟨sent, deleted, _, ended⟩ := (auctions_are_settled_once smallConfig smallMarket
    smallMarket_opened [smallOffer 1000, smallBid 2 1000, smallBid 3 1000]).2 [smallOffer 1000]
    (smallBid 2 1000) [smallBid 3 1000] rfl .neutral 1 auction found (by simpa using sold)
  rw [guid] at ended
  exact ⟨sent, deleted, ended⟩

end WarheadCore.Auction
