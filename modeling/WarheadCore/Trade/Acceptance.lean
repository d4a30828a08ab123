import WarheadCore.Foundation.Runs
import WarheadCore.Trade.Window

/-! A trade is executed on accepts that came after the last change of what the partner offers, as
long as no request merges, fills or mails an offered stack while the partner's accept stands.
-/

namespace WarheadCore.Trade

open Foundation

namespace Window

variable {window next middle : Window}

-- What the setters leave alone

theorem change_party (window : Window) (side other : Side) (f : Party → Party)
    : (window.change side f).party other
      = if other = side then f (window.party other) else window.party other := rfl

@[simp] theorem changeTrade_inventory (window : Window) (side other : Side)
    (f : TradeData → TradeData)
    : ((window.changeTrade side f).party other).inventory = (window.party other).inventory := by
  rw [changeTrade, change_party]
  split <;> rfl

theorem changeTrade_trade (window : Window) (side other : Side) (f : TradeData → TradeData)
    : ((window.changeTrade side f).party other).trade
      = if other = side then f (window.party other).trade else (window.party other).trade := by
  rw [changeTrade, change_party]
  split <;> rfl

@[simp] theorem setAccepted_inventory (window : Window) (side other : Side) (state : Bool)
    : ((window.setAccepted side state).party other).inventory = (window.party other).inventory :=
  changeTrade_inventory ..

@[simp] theorem setAccepted_items (window : Window) (side other : Side) (state : Bool)
    : ((window.setAccepted side state).party other).trade.items
      = (window.party other).trade.items := by
  rw [setAccepted, changeTrade_trade]
  split <;> rfl

theorem setAccepted_accepted (window : Window) (side other : Side) (state : Bool)
    : ((window.setAccepted side state).party other).trade.accepted
      = if other = side then state else (window.party other).trade.accepted := by
  rw [setAccepted, changeTrade_trade]
  split <;> rfl

@[simp] theorem setAccepted_offer (window : Window) (side other : Side) (state : Bool)
    : (window.setAccepted side state).offer other = window.offer other := by
  unfold offer setAccepted changeTrade
  rw [change_party]
  split <;> rfl

@[simp] theorem takeBack_inventory (window : Window) (side other : Side)
    : ((window.takeBack side).party other).inventory = (window.party other).inventory := by
  simp [takeBack]

@[simp] theorem takeBack_items (window : Window) (side other : Side)
    : ((window.takeBack side).party other).trade.items = (window.party other).trade.items := by
  simp [takeBack]

/-- A side is one of the two. -/
theorem Side.eq_or_eq_partner (side other : Side) : other = side ∨ other = side.partner := by
  cases side <;> cases other <;> decide

@[simp] theorem takeBack_accepted (window : Window) (side other : Side)
    : ((window.takeBack side).party other).trade.accepted = false := by
  rw [takeBack, setAccepted_accepted, setAccepted_accepted]
  rcases Side.eq_or_eq_partner side other with rfl | rfl <;> simp

def Named (window : Window) : Prop :=
  ∀ {side slot guid}, (window.party side).trade.items slot = some guid
    → guid < (window.party side).inventory.nextGuid

/-- What every handler of the trade window does: an accept that stands afterwards stood before, and
the partner offers what he offered.
-/
structure Settles (window next : Window) : Prop where
  inventory : ∀ side, (next.party side).inventory = (window.party side).inventory
  named : window.Named → next.Named
  stands
    : ∀ side, (next.party side).trade.accepted
        → (window.party side).trade.accepted ∧ next.offer side.partner = window.offer side.partner
  executed : next.executed = window.executed ∧ next.isOpen = window.isOpen

theorem Settles.refl : Settles window window :=
  ⟨fun _ => rfl, id, fun _ accepted => ⟨accepted, rfl⟩, rfl, rfl⟩

theorem Settles.trans (first : Settles window middle) (second : Settles middle next)
    : Settles window next where
  inventory side := (second.inventory side).trans (first.inventory side)
  named := second.named ∘ first.named
  stands side accepted := by
    obtain ⟨before, same⟩ := second.stands side accepted
    obtain ⟨earlier, still⟩ := first.stands side before
    exact ⟨earlier, same.trans still⟩
  executed :=
    ⟨second.executed.1.trans first.executed.1, second.executed.2.trans first.executed.2⟩

theorem settles_withdraw (side : Side) : Settles window (window.setAccepted side false) where
  inventory := by simp
  named named := by
    intro other slot guid held
    rw [setAccepted_items] at held
    rw [setAccepted_inventory]
    exact named held
  stands other accepted := by
    rw [setAccepted_accepted] at accepted
    split at accepted
    · cases accepted
    · exact ⟨accepted, setAccepted_offer ..⟩
  executed := ⟨rfl, rfl⟩

/-- A change of one half of the window settles it with both accepts taken back. -/
theorem settles_takeBack (side : Side) (f : TradeData → TradeData)
    (named
      : ∀ {slot guid}, (f (window.party side).trade).items slot = some guid
          → (window.party side).trade.items slot = some guid
            ∨ guid < (window.party side).inventory.nextGuid)
    : Settles window ((window.changeTrade side f).takeBack side) where
  inventory := by simp
  named before := by
    intro other slot guid held
    rw [takeBack_items, changeTrade_trade] at held
    rw [takeBack_inventory, changeTrade_inventory]
    split at held
    · next same =>
        subst same
        rcases named held with old | below
        · exact before old
        · exact below
    · exact before held
  stands other accepted := by simp at accepted
  executed := ⟨rfl, rfl⟩

theorem settles_setSpell (side : Side) (spell : Nat) (castItem : Option Guid)
    : Settles window (window.setSpell side spell castItem) := by
  unfold setSpell
  dsimp only
  split
  · exact Settles.refl
  · exact settles_takeBack side _ .inl

theorem settles_setMoney (side : Side) (money : Nat)
    : Settles window (window.setMoney side money) := by
  unfold setMoney
  dsimp only
  split
  · exact Settles.refl
  · split
    · exact Settles.refl
    · exact settles_takeBack side _ .inl

theorem settles_setItem {side : Side} {slot : TradeSlot} {item : Option Guid}
    (below : ∀ guid ∈ item, guid < (window.party side).inventory.nextGuid)
    : Settles window (window.setItem side slot item) := by
  unfold setItem
  split
  · exact Settles.refl
  · have changed : Settles window ((window.changeTrade side (fun trade =>
        { trade with items := Function.update trade.items slot item })).takeBack side) := by
      refine settles_takeBack side _ (fun {other guid} held => ?_)
      dsimp only at held
      by_cases same : other = slot
      · subst same
        rw [Function.update_self] at held
        exact .inr (below guid held)
      · rw [Function.update_of_ne same] at held
        exact .inl held
    dsimp only
    split
    · exact (changed.trans (settles_setSpell side.partner 0 none)).trans (settles_setSpell side 0 none)
    · exact changed.trans (settles_setSpell side 0 none)

theorem settles_handleSetTradeItem (numbered : ∀ side, (window.party side).inventory.Numbered)
    (side : Side) (tradeSlot : Nat) (pos : Pos) (checks : InventoryChecks) (canBeTraded : Guid → Bool)
    : Settles window (window.handleSetTradeItem side tradeSlot pos checks canBeTraded) := by
  unfold handleSetTradeItem
  dsimp only
  split
  · split
    · exact Settles.refl
    · next guid item found =>
        split
        · exact Settles.refl
        · split
          · exact Settles.refl
          · refine settles_setItem ?_
            rintro other ⟨rfl⟩
            exact (numbered side).item (Inventory.getItemByGuid_of_getItemByPos found)
  · exact Settles.refl

theorem settles_handleClearTradeItem (side : Side) (tradeSlot : Nat)
    : Settles window (window.handleClearTradeItem side tradeSlot) := by
  unfold handleClearTradeItem
  split
  · exact settles_setItem (by simp)
  · exact Settles.refl

-- The accept handler

/-- The accept handler settles the window in which the accept is set, or executes the trade on two
accepts.
-/
inductive AcceptOutcome (accepted : Window) : Window → Prop where
  | settled {next : Window} (settles : Settles accepted next) : AcceptOutcome accepted next
  | executed (both : ∀ side, (accepted.party side).trade.accepted)
    : AcceptOutcome accepted { accepted with isOpen := false, executed := true }

theorem AcceptOutcome.ite {accepted yes no : Window} {c : Prop} [Decidable c]
    (then_ : c → AcceptOutcome accepted yes) (else_ : ¬ c → AcceptOutcome accepted no)
    : AcceptOutcome accepted (if c then yes else no) := by
  split
  · next h => exact then_ h
  · next h => exact else_ h

theorem handleAcceptTrade_outcome (side : Side) (checks : AcceptChecks)
    : AcceptOutcome (window.setAccepted side true) (window.handleAcceptTrade side checks) := by
  have withdrawn (other : Side) : AcceptOutcome (window.setAccepted side true)
      ((window.setAccepted side true).setAccepted other false) :=
    .settled (settles_withdraw other)
  have stays : AcceptOutcome (window.setAccepted side true) (window.setAccepted side true) :=
    .settled Settles.refl
  have unspelled (other : Side) : AcceptOutcome (window.setAccepted side true)
      ((window.setAccepted side true).setSpell other 0 none) :=
    .settled (settles_setSpell other 0 none)
  have takenBack : AcceptOutcome (window.setAccepted side true)
      ((window.setAccepted side true).takeBack side) :=
    .settled ((settles_withdraw side).trans (settles_withdraw side.partner))
  refine .ite (fun _ => withdrawn side) (fun _ => ?_)
  refine .ite (fun _ => withdrawn side.partner) (fun _ => ?_)
  refine .ite (fun _ => withdrawn side) (fun _ => ?_)
  refine .ite (fun _ => withdrawn side.partner) (fun _ => ?_)
  refine .ite (fun _ => stays) (fun _ => ?_)
  refine .ite (fun his => ?_) (fun _ => stays)
  refine .ite (fun _ => unspelled side) (fun _ => ?_)
  refine .ite (fun _ => unspelled side.partner) (fun _ => ?_)
  refine .ite (fun _ => takenBack) (fun _ => ?_)
  refine .ite (fun _ => takenBack) (fun _ => .executed (fun other => ?_))
  rcases Side.eq_or_eq_partner side other with rfl | rfl
  · rw [setAccepted_accepted, if_pos rfl]
  · exact his

-- One step

/-- What a message comes to while the window is open: guids stay below the counters, an accept
afterwards is one that stands, the partner's offer unchanged, and the trade is executed on two of
them.
-/
structure Effect (window next : Window) (side : Side) (message : Message) : Prop where
  numbered : ∀ other, (next.party other).inventory.Numbered
  named : next.Named
  stands
    : ∀ other, (next.party other).trade.accepted
        → (if other = side then message.standing (window.party other).trade.accepted
            else (window.party other).trade.accepted)
          ∧ next.offer other.partner = window.offer other.partner
  executed
    : (next.executed = window.executed ∧ next.isOpen = window.isOpen)
        ∨ (next.isOpen = false ∧ ∀ other, (next.party other).trade.accepted)

structure Numbered (window : Window) : Prop where
  inventory : ∀ side, (window.party side).inventory.Numbered
  named : window.Named

/-- A settling handler has its effect where its message leaves an accept standing. -/
theorem Settles.effect (settles : Settles window next) (numbered : window.Numbered) {side : Side}
    {message : Message}
    (standing
      : (next.party side).trade.accepted → (window.party side).trade.accepted
        → message.standing (window.party side).trade.accepted)
    : Effect window next side message where
  numbered other := by
    rw [settles.inventory]
    exact numbered.inventory other
  named := settles.named numbered.named
  stands other accepted := by
    obtain ⟨before, same⟩ := settles.stands other accepted
    refine ⟨?_, same⟩
    split
    · next here =>
        subst here
        exact standing accepted before
    · exact before
  executed := .inl settles.executed

theorem effect_handleAcceptTrade (numbered : window.Numbered) (side : Side) (checks : AcceptChecks)
    : Effect window (window.handleAcceptTrade side checks) side (.acceptTrade checks) := by
  have set_ : Numbered (window.setAccepted side true) := by
    refine ⟨fun other => ?_, fun {other slot guid} held => ?_⟩
    · rw [setAccepted_inventory]
      exact numbered.inventory other
    · rw [setAccepted_items] at held
      rw [setAccepted_inventory]
      exact numbered.named held
  have earlier {other : Side} (accepted : ((window.setAccepted side true).party other).trade.accepted)
      : (if other = side then true else (window.party other).trade.accepted) = true := by
    rw [setAccepted_accepted] at accepted
    exact accepted
  have outcome := @handleAcceptTrade_outcome window side checks
  generalize window.handleAcceptTrade side checks = next at outcome
  cases outcome with
  | settled settles =>
      refine ⟨?_, settles.named set_.named, fun other accepted => ?_, .inl settles.executed⟩
      · intro other
        rw [settles.inventory]
        exact set_.inventory other
      · obtain ⟨before, offered⟩ := settles.stands other accepted
        exact ⟨earlier before, offered.trans (setAccepted_offer ..)⟩
  | executed both =>
      exact ⟨set_.inventory, set_.named,
        fun other accepted => ⟨earlier accepted, setAccepted_offer window side other.partner true⟩,
        .inr ⟨rfl, both⟩⟩

/-- An offer is read from the gold, the traded slots and the counts of the stacks in them. -/
theorem offer_congr {party changed : Party} (trade : changed.trade = party.trade)
    (kept : Inventory.Keeps party.Offers party.inventory changed.inventory)
    : changed.offer = party.offer := by
  unfold Party.offer
  rw [trade, Prod.mk.injEq]
  refine ⟨List.map_congr_left (fun slot member => ?_), rfl⟩
  unfold Party.getItem
  rw [trade]
  cases held : party.trade.items slot with
  | none => rfl
  | some guid =>
      have same := kept guid ⟨slot, member, held⟩
      unfold Inventory.countOf at same
      simpa [Function.comp_def] using congrArg (Option.map (fun count => (guid, count))) same

theorem hasItem_of_offers {party : Party} {guid : Guid} (offers : party.Offers guid)
    : party.trade.hasItem guid := by
  obtain ⟨slot, _, held⟩ := offers
  exact List.any_eq_true.mpr ⟨slot, List.mem_finRange slot, by simpa using held⟩

theorem effect_handleInventory (numbered : window.Numbered) (opened : window.isOpen = true)
    {side : Side} {request : InventoryRequest} {checks : InventoryChecks}
    (spared : window.Spared (side, .inventory request checks))
    : Effect window (window.handleInventory side request checks) side (.inventory request checks) := by
  let inTrade := (window.party side).trade.hasItem
  have unmarked : Inventory.Frame (fun _ => False) (window.party side).inventory
      ((window.party side).inventory.handle checks inTrade request) :=
    Inventory.frame_handle_unmarked (numbered.inventory side)
  have trades (other : Side)
      : ((window.handleInventory side request checks).party other).trade
        = (window.party other).trade := by
    rw [handleInventory, change_party]
    split <;> rfl
  have elsewhere {other : Side} (distinct : other ≠ side)
      : (window.handleInventory side request checks).party other = window.party other := by
    rw [handleInventory, change_party, if_neg distinct]
  have here : ((window.handleInventory side request checks).party side).inventory
      = (window.party side).inventory.handle checks inTrade request := by
    rw [handleInventory, change_party, if_pos rfl]
  refine ⟨fun other => ?_, fun {other slot guid} held => ?_, fun other accepted => ?_,
    .inl ⟨rfl, rfl⟩⟩
  · by_cases same : other = side
    · subst same
      rw [here]
      exact unmarked.numbered (numbered.inventory other)
    · rw [elsewhere same]
      exact numbered.inventory other
  · rw [trades] at held
    have before := numbered.named held
    by_cases same : other = side
    · subst same
      rw [here]
      exact before.trans_le unmarked.grows
    · rw [elsewhere same]
      exact before
  · rw [trades] at accepted
    refine ⟨by simpa [Message.standing] using accepted, ?_⟩
    by_cases same : other.partner = side
    · subst same
      refine offer_congr (trades _) ?_
      rw [here]
      have partner : other.partner.partner = other := by cases other <;> rfl
      have spares := spared opened (by simpa only [partner] using accepted)
      refine (Inventory.frame_handle (numbered.inventory _) ?_ ?_ spares).keeps
      · rintro guid ⟨slot, _, held⟩
        exact numbered.named held
      · exact fun guid => hasItem_of_offers
    · rw [offer, offer, elsewhere same]

/-- Every message has its effect while the window is open. -/
theorem effect_handle (numbered : window.Numbered) (opened : window.isOpen = true) {side : Side}
    {message : Message} (spared : window.Spared (side, message))
    : Effect window (window.handle side message) side message := by
  cases message with
  | setTradeItem tradeSlot pos checks canBeTraded =>
      exact (settles_handleSetTradeItem numbered.inventory side tradeSlot pos checks
        canBeTraded).effect numbered (fun _ => id)
  | clearTradeItem tradeSlot =>
      exact (settles_handleClearTradeItem side tradeSlot).effect numbered (fun _ => id)
  | setTradeGold gold => exact (settles_setMoney side gold).effect numbered (fun _ => id)
  | castSpell spell castItem =>
      exact (settles_setSpell side spell castItem).effect numbered (fun _ => id)
  | acceptTrade checks => exact effect_handleAcceptTrade numbered side checks
  | unacceptTrade =>
      refine (settles_withdraw side).effect numbered (fun accepted _ => ?_)
      rw [setAccepted_accepted, if_pos rfl] at accepted
      cases accepted
  | inventory request checks => exact effect_handleInventory numbered opened spared

-- Whole runs

/-- Every accept that is set came after the last change of what the partner offers, and a trade was
executed on two of them only.
-/
structure Sound (window : Window) : Prop where
  numbered : window.Numbered
  current : ∀ side, (window.party side).trade.accepted → window.current side
  executed
    : window.executed = true → window.isOpen = false ∧ ∀ side, (window.party side).trade.accepted

/-- What stands of an accept stands of an earlier one. -/
theorem standing_mono {message : Message} {before later : Bool} (le : before → later)
    (stands : message.standing before)
    : message.standing later := by
  cases message with
  | acceptTrade checks => rfl
  | unacceptTrade => cases stands
  | _ => exact le stands

theorem Sound.step (sound : window.Sound) {call : Side × Message} (spared : window.Spared call)
    : (window.step call).Sound := by
  unfold Window.step
  split
  · next opened =>
      have effect : Effect window (window.handle call.1 call.2) call.1 call.2 :=
        effect_handle sound.numbered opened spared
      refine ⟨⟨effect.numbered, effect.named⟩, fun side accepted => ?_, fun executed => ?_⟩
      · obtain ⟨stands, same⟩ := effect.stands side accepted
        dsimp only
        rw [Bool.and_eq_true]
        refine ⟨?_, decide_eq_true same⟩
        split at stands
        · next here =>
            rw [if_pos here]
            exact standing_mono (sound.current side) stands
        · next elsewhere =>
            rw [if_neg elsewhere]
            exact sound.current side stands
      · rcases effect.executed with ⟨same, _⟩ | ended
        · exact absurd ((sound.executed (same.symm.trans executed)).1.symm.trans opened) (by simp)
        · exact ended
  · exact sound

theorem Opened.sound (opened : window.Opened) : window.Sound where
  numbered := ⟨opened.numbered, fun {side slot guid} held => by simp [opened.trade side] at held⟩
  current side accepted := by simp [opened.trade side] at accepted
  executed executed := by simp [opened.executed] at executed

/-- In every run from two fresh windows, where no request merges, fills or mails an offered stack
while the partner's accept stands, a trade is executed only on two accepts that came after the last
change of what the partner offers.
-/
theorem trade_is_executed_on_current_accepts {window : Window} (opened : window.Opened)
    {calls : List (Side × Message)} (spared : Runs.EachStep step Spared window calls)
    : Runs.EachStep step
        (fun window call => window.Executes call → ∀ side, (window.step call).current side)
        window calls := by
  refine Runs.eachStep_of_invariant (fun _ _ sound spared => sound.step spared) ?_ opened.sound spared
  intro window call sound spared executes side
  have after := sound.step spared
  exact after.current side ((after.executed executes.2).2 side)

/-- Witness: the second player accepts, the first one moves the stack that he offers and accepts as
well.
-/
theorem trade_is_executed_on_current_accepts_applied
    : let checks : InventoryChecks := { maxStackSize := fun _ => 20 }
      let items : Table Guid Item := (∅ : Table Guid Item).put 1 ⟨7, 20, .slot 23⟩
      let window : Window :=
        { party := fun side => if side = .player then ⟨0, ⟨items, 3⟩, {}⟩ else ⟨0, ⟨∅, 3⟩, {}⟩ }
      let calls : List (Side × Message) :=
        [(.player, .setTradeItem 0 ⟨255, 23⟩ checks (fun _ => true)), (.trader, .acceptTrade {}),
          (.player, .inventory (.swapItem ⟨255, 23⟩ ⟨255, 24⟩) checks), (.player, .acceptTrade {})]
      Runs.EachStep step
        (fun window call => window.Executes call → ∀ side, (window.step call).current side)
        window calls := by
  intro checks items window calls
  have opened : window.Opened := by
    refine ⟨fun side => by cases side <;> rfl, fun side => ?_, rfl, rfl⟩
    cases side <;> exact Inventory.numbered_of_entries (by decide +kernel)
  have moved : Spared (Runs.run step window (calls.take 2))
      (.player, .inventory (.swapItem ⟨255, 23⟩ ⟨255, 24⟩) checks) :=
    fun _ _ _ => ⟨True.intro, fun looks => absurd looks (by decide +kernel)⟩
  exact trade_is_executed_on_current_accepts opened ⟨trivial, trivial, moved, trivial, trivial⟩

/-- The claim fails where a stack that is offered is merged: the second player accepts twenty
pieces, nineteen of them go to another stack, and the trade is executed.
-/
theorem offered_stack_is_drained
    : let checks : InventoryChecks := { maxStackSize := fun _ => 20 }
      let items : Table Guid Item :=
        ((∅ : Table Guid Item).put 1 ⟨7, 20, .slot 23⟩).put 2 ⟨7, 1, .slot 24⟩
      let window : Window :=
        { party := fun side => if side = .player then ⟨0, ⟨items, 3⟩, {}⟩ else ⟨0, ⟨∅, 3⟩, {}⟩ }
      let calls : List (Side × Message) :=
        [(.player, .setTradeItem 0 ⟨255, 23⟩ checks (fun _ => true)), (.trader, .acceptTrade {}),
          (.player, .inventory (.swapItem ⟨255, 23⟩ ⟨255, 24⟩) checks), (.player, .acceptTrade {})]
      window.Opened
        ∧ ((Runs.run step window (calls.take 2)).offer .player).1.head? = some (some (1, 20))
        ∧ ((Runs.run step window calls).offer .player).1.head? = some (some (1, 1))
        ∧ ¬ Runs.EachStep step
            (fun window call => window.Executes call → ∀ side, (window.step call).current side)
            window calls := by
  intro checks items window calls
  have opened : window.Opened := by
    refine ⟨fun side => by cases side <;> rfl, fun side => ?_, rfl, rfl⟩
    cases side <;> exact Inventory.numbered_of_entries (by decide +kernel)
  refine ⟨opened, by decide +kernel, by decide +kernel, fun each => ?_⟩
  have stale := each.2.2.2.1 ⟨by decide +kernel, by decide +kernel⟩ .trader
  exact absurd stale (by decide +kernel)

end Window

end WarheadCore.Trade
