import WarheadCore.Guilds.BankMoves
import WarheadCore.Foundation.Runs

/-! How many items a member can take out of a bank tab between two daily resets.
A move is checked and counted once for every tab that an item leaves: the tab of the source, and
with a swap that of the destination.
-/

namespace WarheadCore.Guilds

open Foundation Foundation.Runs WarheadCore.Items

-- Moves that take an item out of a tab

def Place.leaves (place other : Place) (tabId : Nat) : Bool :=
  place.inTab tabId && !other.inTab tabId

def GuildBankSwapItems.sides (packet : GuildBankSwapItems) : Place × Place :=
  if packet.bankOnly then
    (.bank packet.bankTab1 packet.bankSlot1, .bank packet.bankTab packet.bankSlot)
  else
    let bag : Place :=
      .player (if packet.autoStore then nullBag else packet.containerSlot)
        (if packet.autoStore then nullSlot else packet.containerItemSlot)
    if (if packet.autoStore then 1 else packet.toSlot) != 0 then
      (.bank packet.bankTab packet.bankSlot, bag)
    else (bag, .bank packet.bankTab packet.bankSlot)

def Replaced (before after : Holdings Place) (place : Place) : Bool :=
  match before.items.get? place with
  | none => false
  | some stored => (after.items.get? place).map Item.guid != some stored.guid

/-- A move took an item out of a tab: from its source, or what lay at its destination. -/
def TookOut (before : BankState) (outcome : Bool × BankState) (src dest : Place) (tabId : Nat)
    : Bool :=
  outcome.1 && (src.leaves dest tabId
    || dest.leaves src tabId && Replaced before.holdings outcome.2.holdings dest)

/-- What happens to the bank: a member moves items, and the items of bank and bags change by
whatever else there is.
-/
inductive BankEvent where
  | swapItems (storage : PlayerStorage) (player : Nat) (banker : Bool) (packet : GuildBankSwapItems)
  | rearranged (holdings : Holdings Place)

def BankState.step (state : BankState) : BankEvent → BankState
  | .swapItems storage player banker packet =>
      (handleGuildBankSwapItems state storage player banker packet).2
  | .rearranged holdings => { state with holdings }

def taken (guid tabId : Nat) (state : BankState) : BankEvent → Int
  | .swapItems storage player banker packet =>
      if player = guid ∧ TookOut state (handleGuildBankSwapItems state storage player banker packet)
        packet.sides.1 packet.sides.2 tabId then 1 else 0
  | .rearranged _ => 0

-- Places that nothing leaves

def Stays (before after : Holdings Place) (place : Place) : Prop :=
  ∀ stored, before.items.get? place = some stored →
    ∃ grown, after.items.get? place = some grown ∧ grown.guid = stored.guid

theorem Stays.trans {before middle after : Holdings Place} {place : Place}
    (first : Stays before middle place) (later : Stays middle after place)
    : Stays before after place := by
  intro stored found
  obtain ⟨grown, between, same⟩ := first stored found
  obtain ⟨last, now, still⟩ := later grown between
  exact ⟨last, now, still.trans same⟩

theorem Stays.not_replaced {before after : Holdings Place} {place : Place}
    (stays : Stays before after place)
    : Replaced before after place = false := by
  unfold Replaced
  cases found : before.items.get? place with
  | none => rfl
  | some stored =>
      obtain ⟨grown, now, same⟩ := stays stored found
      simp [now, same]

/-- Putting an object elsewhere leaves a place alone. -/
theorem stays_put (holdings : Holdings Place) {place other : Place} (item : Item)
    (apart : place ≠ other)
    : Stays holdings (holdings.put other item) place := by
  intro stored found
  refine ⟨stored, ?_, rfl⟩
  rw [Holdings.get?_put, if_neg apart, found]

/-- Storing fills up the object at a place, or leaves it alone. -/
theorem stays_storeAt (rules : ItemRules Place) (holdings : Holdings Place) (target : Place)
    (item : Item) (count : Nat) (clone : Bool) (place : Place)
    : Stays holdings (storeAt rules holdings target item count clone) place := by
  intro stored found
  unfold storeAt
  by_cases here : place = target
  · subst here
    rw [found]
    dsimp only
    rw [Holdings.get?_put, if_pos rfl]
    exact ⟨_, rfl, rfl⟩
  · cases there : holdings.items.get? target with
    | some other => exact stays_put _ _ here stored found
    | none =>
        dsimp only
        split
        · split
          · exact ⟨stored, found, rfl⟩
          · exact stays_put { holdings with nextGuid := holdings.nextGuid + 1 } _ here stored found
        · exact stays_put _ _ here stored found

theorem stays_storeItem (rules : ItemRules Place) (item : Item) (plan : List (Place × Nat))
    (holdings : Holdings Place) (place : Place)
    : Stays holdings (Items.storeItem rules item plan holdings) place := by
  fun_induction Items.storeItem rules item plan holdings with
  | case1 holdings => exact fun stored found => ⟨stored, found, rfl⟩
  | case2 target count holdings => exact stays_storeAt rules holdings target item count false place
  | case3 target count next rest holdings ih =>
      exact (stays_storeAt rules holdings target item count true place).trans ih

-- What a move checks and counts

/-- A move is refused and counts nothing; or it passed the check of its source, which it counts; or
it is a swap, passed both checks and counts both sides.
-/
inductive Counts (state : BankState) (player : Nat) (src dest : Place)
    (outcome : Bool × BankState)
    : Prop where
  | refused (fails : outcome.1 = false) (same : outcome.2.live = state.live)
  | moved (allowed : src.hasWithdrawRights dest state.live.guild player = true)
      (counted : outcome.2.live = state.live.countRemoval player src dest)
      (stays : Stays state.holdings outcome.2.holdings dest)
  | swapped (allowed : src.hasWithdrawRights dest state.live.guild player = true)
      (allowedBack : dest.hasWithdrawRights src state.live.guild player = true)
      (counted : outcome.2.live
        = (state.live.countRemoval player src dest).countRemoval player dest src)

section

variable {state : BankState} {storage : PlayerStorage} {player : Nat} {src dest : Place}

/-- Without a swap, only the source is counted, and the destination keeps its object. -/
theorem doItemsMove_alone (different : src ≠ dest) (item moved : Item) (splitedAmount : Nat)
    : (state.doItemsMove storage player src dest item moved none splitedAmount).1 = false
        ∧ (state.doItemsMove storage player src dest item moved none splitedAmount).2 = state
      ∨ (state.doItemsMove storage player src dest item moved none splitedAmount).1 = true
        ∧ (state.doItemsMove storage player src dest item moved none splitedAmount).2.live
          = state.live.countRemoval player src dest
        ∧ Stays state.holdings
          (state.doItemsMove storage player src dest item moved none splitedAmount).2.holdings
          dest := by
  unfold BankState.doItemsMove
  cases planned : state.canStore storage moved (none : Option Item).isSome dest with
  | error _ => exact .inl ⟨rfl, rfl⟩
  | ok vec =>
      refine .inr ⟨rfl, rfl, Stays.trans ?_ (stays_storeItem storage.rules moved vec _ dest)⟩
      intro stored found
      unfold BankState.removeItem
      dsimp only
      split
      · exact stays_put _ _ (Ne.symm different) stored found
      · refine ⟨stored, ?_, rfl⟩
        rw [Holdings.get?_remove, if_neg (Ne.symm different), found]

/-- What every move checks and counts. -/
theorem moveItems_counts (different : src ≠ dest) (splitedAmount : Nat)
    : Counts state player src dest (state.moveItems storage player src dest splitedAmount) := by
  unfold BankState.moveItems
  cases state.initItem storage src with
  | none => exact .refused rfl rfl
  | some item =>
      dsimp only
      cases checkItem item splitedAmount with
      | none => exact .refused rfl rfl
      | some amount =>
          dsimp only
          split
          · exact .refused rfl rfl
          · split
            · exact .refused rfl rfl
            · next unchecked =>
                have allowed : src.hasWithdrawRights dest state.live.guild player = true := by
                  simpa using unchecked
                split
                · let counted : BankState :=
                    { state with holdings :=
                      { state.holdings with nextGuid := state.holdings.nextGuid + 1 } }
                  rcases @doItemsMove_alone counted storage player src dest different item
                    (storage.rules.clone item state.holdings.nextGuid amount) amount
                    with ⟨fails, same⟩ | ⟨-, live, stays⟩
                  · have live := congrArg BankState.live same
                    exact .refused fails live
                  · exact .moved allowed live stays
                · rcases @doItemsMove_alone state storage player src dest different item item 0
                    with ⟨fails, -⟩ | ⟨succeeds, live, stays⟩
                  · rw [fails, if_neg Bool.false_ne_true]
                    cases state.initItem storage dest with
                    | none => exact .refused rfl rfl
                    | some destItem =>
                        dsimp only
                        split
                        · exact .refused rfl rfl
                        · split
                          · exact .refused rfl rfl
                          · next unchecked =>
                              have back : dest.hasWithdrawRights src state.live.guild player
                                  = true := by simpa using unchecked
                              unfold BankState.doItemsMove
                              cases state.canStore storage item (some destItem).isSome dest with
                              | error _ => exact .refused rfl rfl
                              | ok vec =>
                                  dsimp only
                                  cases state.canStore storage destItem true src with
                                  | error _ => exact .refused rfl rfl
                                  | ok backVec => exact .swapped allowed back rfl
                  · rw [succeeds, if_pos rfl]
                    exact .moved allowed live stays

/-- What a request checks and counts, at the sides that it names. -/
theorem handle_counts (state : BankState) (storage : PlayerStorage) (player : Nat) (banker : Bool)
    (packet : GuildBankSwapItems)
    : Counts state player packet.sides.1 packet.sides.2
        (handleGuildBankSwapItems state storage player banker packet) := by
  unfold handleGuildBankSwapItems
  cases banker with
  | false => exact .refused rfl rfl
  | true =>
      rw [if_neg (by decide)]
      by_cases bank : packet.bankOnly = true
      · have sides : packet.sides = (.bank packet.bankTab1 packet.bankSlot1,
            .bank packet.bankTab packet.bankSlot) := if_pos bank
        rw [if_pos bank, sides]
        unfold BankState.swapItems
        split
        · exact .refused rfl rfl
        · split
          · exact .refused rfl rfl
          · next different =>
              exact moveItems_counts (fun same => different (Place.bank.inj same)) _
      · rw [if_neg bank]
        unfold GuildBankSwapItems.sides
        rw [if_neg bank]
        dsimp only
        generalize (if packet.autoStore then nullBag else packet.containerSlot) = bag
        generalize (if packet.autoStore then nullSlot else packet.containerItemSlot) = slot
        generalize (if packet.autoStore then 1 else packet.toSlot) = toSlot
        generalize (if packet.autoStore then 0 else toUInt32 packet.stackCount) = amount
        unfold BankState.swapItemsWithInventory
        cases toSlot != 0 with
        | true =>
            rw [if_pos rfl, if_pos rfl]
            dsimp only
            split
            · exact .refused rfl rfl
            · split
              · exact .refused rfl rfl
              · exact moveItems_counts (fun same => by cases same) _
        | false =>
            rw [if_neg Bool.false_ne_true, if_neg Bool.false_ne_true]
            dsimp only
            split
            · exact .refused rfl rfl
            · split
              · exact .refused rfl rfl
              · exact moveItems_counts (fun same => by cases same) _

end

-- Counters within the limits of a rank

/-- A member of a rank whose counters are within the limits of that rank, for all tabs that a rank
knows.
-/
structure WithinSlots (guid rankId : Nat) (limits : Nat → Nat → Int) (live : LiveGuild)
    (member : Member)
    : Prop where
  stored : live.guild.getMember guid = some member
  ranked : member.rankId = rankId
  table : live.guild.getRankBankTabSlotsPerDay = limits
  counted : ∀ tabId < guildBankMaxTabs, 0 ≤ member.bankWithdraw[tabCell tabId]
    ∧ member.bankWithdraw[tabCell tabId] ≤ max 0 (limits rankId tabId)

/-- A limit read as a signed number is in the signed range. -/
theorem getRankBankTabSlotsPerDay_range (guild : Guild) (rankId tabId : Nat)
    : -0x80000000 ≤ guild.getRankBankTabSlotsPerDay rankId tabId
      ∧ guild.getRankBankTabSlotsPerDay rankId tabId < 0x80000000 := by
  unfold Guild.getRankBankTabSlotsPerDay RankInfo.getBankTabSlotsPerDay
  split
  · split
    · exact toInt32_range _
    · constructor <;> decide
  · constructor <;> decide

/-- A rank has no limit but zero beyond the tabs that it knows. -/
theorem getRankBankTabSlotsPerDay_beyond {guild : Guild} {rankId tabId : Nat}
    (beyond : guildBankMaxTabs ≤ tabId)
    : guild.getRankBankTabSlotsPerDay rankId tabId = 0 := by
  unfold Guild.getRankBankTabSlotsPerDay RankInfo.getBankTabSlotsPerDay
  split
  · split
    · next info _ =>
        have none : info.bankTabRightsAndSlots[tabId]? = none := Vector.getElem?_eq_none beyond
        rw [none]
        exact toInt32_of_range (by decide) (by decide)
    · rfl
  · rfl

section

variable {live : LiveGuild} {guid rankId tabId : Nat} {limits : Nat → Nat → Int} {member : Member}

/-- Who may take an item out of a tab has not used up the limit of his rank. -/
theorem WithinSlots.room (within : WithinSlots guid rankId limits live member)
    (ordinary : rankId ≠ grGuildmaster) {place other : Place}
    (leaves : place.leaves other tabId = true)
    (allowed : place.hasWithdrawRights other live.guild guid = true)
    : tabId < guildBankMaxTabs ∧ member.bankWithdraw[tabCell tabId] < limits rankId tabId := by
  cases place with
  | player bag slot => cases leaves
  | bank tab slot =>
      unfold Place.leaves Place.inTab at leaves
      simp only [Bool.and_eq_true, beq_iff_eq, Bool.not_eq_true'] at leaves
      obtain ⟨rfl, outside⟩ := leaves
      have apart : other.inTab tab = false := outside
      unfold Place.hasWithdrawRights at allowed
      dsimp only at allowed
      rw [apart, Bool.false_or, within.stored] at allowed
      have remains : live.guild.getMemberRemainingSlots member tab ≠ 0 := by simpa using allowed
      unfold Guild.getMemberRemainingSlots Member.getBankWithdrawValue at remains
      rw [within.ranked, if_neg ordinary, within.table] at remains
      have range := getRankBankTabSlotsPerDay_range live.guild rankId tab
      rw [within.table] at range
      split at remains
      · next views =>
          have inside : tab < guildBankMaxTabs := by
            by_contra beyond
            apply views
            unfold Guild.getRankBankTabRights
            split
            · next info _ =>
                have none : info.bankTabRightsAndSlots[tab]? = none :=
                  Vector.getElem?_eq_none (Nat.not_lt.mp beyond)
                rw [none]
                rfl
            · rfl
          have counted := within.counted tab inside
          dsimp only at remains
          rw [toInt32_of_range (by omega) (by omega)] at remains
          refine ⟨inside, ?_⟩
          split at remains
          · omega
          · exact (remains rfl).elim
      · exact (remains rfl).elim

/-- Counting for any tab keeps the counters within the limits and lowers none; for the member
himself it counts, as long as there is room.
-/
theorem WithinSlots.updateMemberWithdrawSlots (within : WithinSlots guid rankId limits live member)
    (ordinary : rankId ≠ grGuildmaster) (player tab : Nat)
    : ∃ later, WithinSlots guid rankId limits (live.updateMemberWithdrawSlots player tab) later
        ∧ (∀ tabId < guildBankMaxTabs,
          member.bankWithdraw[tabCell tabId] ≤ later.bankWithdraw[tabCell tabId])
        ∧ (player = guid → tab < guildBankMaxTabs →
          member.bankWithdraw[tabCell tab] < limits rankId tab →
          member.bankWithdraw[tabCell tab] + 1 ≤ later.bankWithdraw[tabCell tab]) := by
  unfold LiveGuild.updateMemberWithdrawSlots
  by_cases own : player = guid
  · subst own
    rw [within.stored]
    dsimp only
    unfold Member.getBankWithdrawValue
    rw [within.ranked, if_neg ordinary, within.table]
    split
    · next room =>
        have low := room.2
        have range := getRankBankTabSlotsPerDay_range live.guild rankId tab
        have beyond := @getRankBankTabSlotsPerDay_beyond live.guild rankId tab
        rw [within.table] at range beyond
        let raised := toInt32 (member.bankWithdraw[tabCell tab] + (1 : Nat))
        let counted := member.bankWithdraw.set (tabCell tab) raised
        have cell (tabId : Nat) : counted[tabCell tabId]
            = if (tabCell tab).val = (tabCell tabId).val then raised
              else member.bankWithdraw[tabCell tabId] :=
          Vector.getElem_set ..
        -- a tab that a rank knows shares its counter with no other, and has none to raise beyond
        have same (tabId : Nat) (inside : tabId < guildBankMaxTabs)
            (shared : (tabCell tab).val = (tabCell tabId).val)
            : tab = tabId ∧ raised = member.bankWithdraw[tabCell tab] + 1 := by
          have value : member.bankWithdraw[tabCell tab] = member.bankWithdraw[tabCell tabId] :=
            congrArg (fun cell : Fin _ => member.bankWithdraw[cell]) (Fin.ext shared)
          have counted := within.counted tabId inside
          have known : tab < guildBankMaxTabs := by
            by_contra outside
            have nothing := beyond (Nat.not_lt.mp outside)
            omega
          have equal : tab = tabId := by
            simp only [tabCell, Fin.ofNat, guildBankMaxTabs] at shared known inside
            omega
          refine ⟨equal, ?_⟩
          exact toInt32_of_range (by omega) (by omega)
        refine ⟨{ member with bankWithdraw := counted }, ⟨?_, within.ranked, within.table, ?_⟩, ?_,
          ?_⟩
        · exact (Table.get?_modify_self live.guild.members player _).trans
            (congrArg (Option.map _) within.stored)
        · intro tabId inside
          have before := within.counted tabId inside
          dsimp only
          rw [cell]
          split
          · next shared =>
              obtain ⟨rfl, value⟩ := same tabId inside shared
              omega
          · exact before
        · intro tabId inside
          dsimp only
          rw [cell]
          split
          · next shared =>
              obtain ⟨rfl, value⟩ := same tabId inside shared
              omega
          · exact le_rfl
        · intro _ inside _
          dsimp only
          rw [cell, if_pos rfl, (same tab inside rfl).2]
    · next full =>
        exact ⟨member, within, fun _ _ => le_rfl, fun _ _ room => (full ⟨ordinary, room⟩).elim⟩
  · cases live.guild.getMember player with
    | none => exact ⟨member, within, fun _ _ => le_rfl, fun same => (own same).elim⟩
    | some record =>
        dsimp only
        split
        · refine ⟨member, ⟨?_, within.ranked, within.table, within.counted⟩, fun _ _ => le_rfl,
            fun same => (own same).elim⟩
          exact (Table.get?_modify_of_ne live.guild.members _ (Ne.symm own)).trans within.stored
        · exact ⟨member, within, fun _ _ => le_rfl, fun same => (own same).elim⟩

/-- Counting a removal keeps the counters within the limits and lowers none; one of the member
himself is counted for the tab that it leaves, as long as there is room.
-/
theorem WithinSlots.countRemoval (within : WithinSlots guid rankId limits live member)
    (ordinary : rankId ≠ grGuildmaster) (player : Nat) (place other : Place)
    : ∃ later, WithinSlots guid rankId limits (live.countRemoval player place other) later
        ∧ (∀ tabId < guildBankMaxTabs,
          member.bankWithdraw[tabCell tabId] ≤ later.bankWithdraw[tabCell tabId])
        ∧ (player = guid → ∀ tabId < guildBankMaxTabs, place.leaves other tabId = true →
          member.bankWithdraw[tabCell tabId] < limits rankId tabId →
          member.bankWithdraw[tabCell tabId] + 1 ≤ later.bankWithdraw[tabCell tabId]) := by
  cases place with
  | player bag slot =>
      exact ⟨member, within, fun _ _ => le_rfl, fun _ _ _ leaves => by cases leaves⟩
  | bank tab slot =>
      unfold LiveGuild.countRemoval
      dsimp only
      cases stays : other.inTab tab with
      | true =>
          rw [if_pos rfl]
          refine ⟨member, within, fun _ _ => le_rfl, fun _ tabId _ leaves => ?_⟩
          unfold Place.leaves Place.inTab at leaves
          simp only [Bool.and_eq_true, beq_iff_eq, Bool.not_eq_true'] at leaves
          obtain ⟨rfl, outside⟩ := leaves
          have apart : other.inTab tab = false := outside
          rw [stays] at apart
          cases apart
      | false =>
          rw [if_neg Bool.false_ne_true]
          obtain ⟨later, kept, mono, counts⟩ :=
            within.updateMemberWithdrawSlots ordinary player tab
          refine ⟨later, kept, mono, fun own tabId inside leaves room => ?_⟩
          unfold Place.leaves Place.inTab at leaves
          simp only [Bool.and_eq_true, beq_iff_eq] at leaves
          obtain ⟨rfl, -⟩ := leaves
          exact counts own inside room

end

-- Between two resets

section

variable {state : BankState} {guid rankId : Nat} {limits : Nat → Nat → Int} {member : Member}

/-- What happens to the bank keeps the counters of a member within the limits and lowers none. When
he takes an item out of a tab, his rank knows that tab and its counter rises.
-/
theorem WithinSlots.step (within : WithinSlots guid rankId limits state.live member)
    (ordinary : rankId ≠ grGuildmaster) (event : BankEvent)
    : ∃ later, WithinSlots guid rankId limits (state.step event).live later
        ∧ (∀ tabId < guildBankMaxTabs,
          member.bankWithdraw[tabCell tabId] + taken guid tabId state event
            ≤ later.bankWithdraw[tabCell tabId])
        ∧ ∀ tabId, guildBankMaxTabs ≤ tabId → taken guid tabId state event = 0 := by
  cases event with
  | rearranged holdings =>
      exact ⟨member, within, fun _ _ => (add_zero _).le, fun _ _ => rfl⟩
  | swapItems storage player banker packet =>
      have counts := handle_counts state storage player banker packet
      change ∃ later, WithinSlots guid rankId limits
        (handleGuildBankSwapItems state storage player banker packet).2.live later ∧ _
      unfold taken
      dsimp only
      generalize handleGuildBankSwapItems state storage player banker packet = outcome at counts ⊢
      generalize packet.sides.1 = src at counts ⊢
      generalize packet.sides.2 = dest at counts ⊢
      -- it is enough to look at moves of the member himself that took an item out of a tab
      have enough (later : Member)
          (mono : ∀ tabId < guildBankMaxTabs,
            member.bankWithdraw[tabCell tabId] ≤ later.bankWithdraw[tabCell tabId])
          (raised : player = guid → ∀ tabId, TookOut state outcome src dest tabId = true →
            tabId < guildBankMaxTabs ∧
              member.bankWithdraw[tabCell tabId] + 1 ≤ later.bankWithdraw[tabCell tabId])
          : (∀ tabId < guildBankMaxTabs, member.bankWithdraw[tabCell tabId]
              + (if player = guid ∧ TookOut state outcome src dest tabId = true then 1 else 0)
                ≤ later.bankWithdraw[tabCell tabId])
            ∧ ∀ tabId, guildBankMaxTabs ≤ tabId →
              (if player = guid ∧ TookOut state outcome src dest tabId = true then (1 : Int) else 0)
                = 0 := by
        constructor
        · intro tabId inside
          split
          · next takes => exact (raised takes.1 tabId takes.2).2
          · have low := mono tabId inside
            omega
        · intro tabId beyond
          rw [if_neg]
          rintro ⟨own, takes⟩
          exact absurd (raised own tabId takes).1 (Nat.not_lt.mpr beyond)
      cases counts with
      | refused fails same =>
          rw [same]
          refine ⟨member, within, enough member (fun _ _ => le_rfl) (fun _ tabId takes => ?_)⟩
          unfold TookOut at takes
          rw [fails, Bool.false_and] at takes
          cases takes
      | moved allowed counted stays =>
          obtain ⟨later, kept, mono, counts⟩ := within.countRemoval ordinary player src dest
          rw [counted]
          refine ⟨later, kept, enough later mono (fun own tabId takes => ?_)⟩
          subst own
          unfold TookOut at takes
          rw [stays.not_replaced, Bool.and_false, Bool.or_false, Bool.and_eq_true] at takes
          obtain ⟨inside, room⟩ := within.room ordinary takes.2 allowed
          exact ⟨inside, counts rfl tabId inside takes.2 room⟩
      | swapped allowed allowedBack counted =>
          obtain ⟨middle, between, mono, counts⟩ := within.countRemoval ordinary player src dest
          obtain ⟨later, kept, mono', counts'⟩ := between.countRemoval ordinary player dest src
          rw [counted]
          refine ⟨later, kept, enough later
            (fun tabId inside => (mono tabId inside).trans (mono' tabId inside))
            (fun own tabId takes => ?_)⟩
          subst own
          unfold TookOut at takes
          simp only [Bool.and_eq_true, Bool.or_eq_true] at takes
          rcases takes.2 with leaves | ⟨leaves, -⟩
          · obtain ⟨inside, room⟩ := within.room ordinary leaves allowed
            exact ⟨inside, (counts rfl tabId inside leaves room).trans (mono' tabId inside)⟩
          · obtain ⟨inside, room⟩ := within.room ordinary leaves allowedBack
            have first := mono tabId inside
            have second := mono' tabId inside
            by_cases roomLeft : middle.bankWithdraw[tabCell tabId] < limits rankId tabId
            · have raised := counts' rfl tabId inside leaves roomLeft
              exact ⟨inside, by omega⟩
            · exact ⟨inside, by omega⟩

/-- Over a run, what a member takes out of a tab stays within what is left of the limit. -/
theorem WithinSlots.run (within : WithinSlots guid rankId limits state.live member)
    (ordinary : rankId ≠ grGuildmaster) (tabId : Nat) (events : List BankEvent)
    : total BankState.step (taken guid tabId) state events
      ≤ max 0 (limits rankId tabId)
        - if tabId < guildBankMaxTabs then member.bankWithdraw[tabCell tabId] else 0 := by
  induction events generalizing state member with
  | nil =>
      unfold total
      split
      · next inside =>
          have counted := within.counted tabId inside
          omega
      · omega
  | cons event rest ih =>
      obtain ⟨later, kept, raised, beyond⟩ := within.step ordinary event
      have next := ih kept
      unfold total
      by_cases inside : tabId < guildBankMaxTabs
      · have here := raised tabId inside
        rw [if_pos inside] at next ⊢
        omega
      · have here := beyond tabId (Nat.not_lt.mp inside)
        rw [if_neg inside] at next ⊢
        omega

end

/-- From a daily reset on, the moves by which a member below the guild master took an item out of a
bank tab are never more than the slots per day of his rank for that tab, whatever he and others
move, split and swap.
-/
theorem taken_within_slots_per_day (live : LiveGuild) (holdings : Holdings Place) {guid : Nat}
    {member : Member} (joined : live.guild.getMember guid = some member)
    (ordinary : member.rankId ≠ grGuildmaster) (tabId : Nat) (events : List BankEvent)
    : total BankState.step (taken guid tabId) { live := live.resetTimes, holdings } events
      ≤ max 0 (live.guild.getRankBankTabSlotsPerDay member.rankId tabId) := by
  let fresh : Member :=
    { member with bankWithdraw := Vector.replicate (guildBankMaxTabs + 1) 0 }
  have reset (tabId : Nat) : fresh.bankWithdraw[tabCell tabId] = 0 := Vector.getElem_replicate _
  have within : WithinSlots guid member.rankId live.guild.getRankBankTabSlotsPerDay
      live.resetTimes fresh := by
    constructor
    case stored =>
      exact (Table.get?_mapValues live.guild.members _ guid).trans (congrArg (Option.map _) joined)
    case ranked => rfl
    case table => rfl
    case counted =>
      intro tabId _
      rw [reset]
      omega
  have bounded := @WithinSlots.run { live := live.resetTimes, holdings } _ _ _ _ within ordinary
    tabId events
  rw [reset, ite_self, sub_zero] at bounded
  exact bounded

/-- A second member, whose rank may take one item a day out of the first tab. -/
def guildWithLimit : LiveGuild :=
  { filledState.live with
    guild := { filledState.live.guild with
      ranks := [
        { rankId := 0, name := "Master", rights := grRightAll, bankMoneyPerDay := 0 },
        { rankId := 1, name := "Keeper", rights := grRightEmpty, bankMoneyPerDay := 0
          bankTabRightsAndSlots := (Vector.replicate guildBankMaxTabs {}).set 0
            { tabId := 0, rights := guildBankRightFull, slots := 1 } (by decide) }]
      members := filledState.live.guild.members.emplace 2
        { name := "Bea", level := 10, playerClass := 2, rankId := 1 } } }

/-- He swaps an item of the tab with one of his bags, and cannot swap them back. -/
theorem taken_within_slots_per_day_applied
    : total BankState.step (taken 2 0)
          { live := guildWithLimit.resetTimes, holdings := filledState.holdings }
          [.swapItems plainBags 2 true swapWithBackpack,
            .swapItems plainBags 2 true swapWithBackpack] = 1
        ∧ ∃ member, guildWithLimit.guild.getMember 2 = some member
          ∧ total BankState.step (taken 2 0)
              { live := guildWithLimit.resetTimes, holdings := filledState.holdings }
              [.swapItems plainBags 2 true swapWithBackpack,
                .swapItems plainBags 2 true swapWithBackpack]
            ≤ max 0 (guildWithLimit.guild.getRankBankTabSlotsPerDay member.rankId 0) :=
  ⟨by decide +kernel, { name := "Bea", level := 10, playerClass := 2, rankId := 1 }, rfl,
    taken_within_slots_per_day guildWithLimit filledState.holdings rfl (by decide) 0 _⟩

end WarheadCore.Guilds
