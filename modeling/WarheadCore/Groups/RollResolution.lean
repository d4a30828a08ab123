import WarheadCore.Groups.RollTallies

/-! CountTheRoll: who wins a roll, and what becomes of the item.
Voters who are not present do not draw. When nobody who needs the item is present, those who voted
greed or disenchant draw for it, and when none of them is present either, it is free for all.
-/

namespace WarheadCore.Groups

open Foundation Foundation.Records

-- The loot of a roll

structure LootMarks where
  isLooted : Bool := false
  isBlocked : Bool := true
  rollWinnerGUID : Option Nat := none
deriving DecidableEq

structure RolledLoot where
  items : List LootMarks
  questItems : List LootMarks := []
  gold : Nat := 0
  unlootedCount : Nat
  sourceIsChest : Bool := false
deriving DecidableEq

def RolledLoot.mark (loot : RolledLoot) (itemSlot : Nat) (change : LootMarks → LootMarks)
    : RolledLoot :=
  if itemSlot ≥ loot.items.length then
    { loot with questItems := loot.questItems.modify (itemSlot - loot.items.length) change }
  else { loot with items := loot.items.modify itemSlot change }

def RolledLoot.take (loot : RolledLoot) (itemSlot : Nat) : RolledLoot :=
  { loot.mark itemSlot (fun marks => { marks with isLooted := true }) with
    unlootedCount := toUInt8 (loot.unlootedCount - 1) }

def RolledLoot.reserve (loot : RolledLoot) (itemSlot winner : Nat) : RolledLoot :=
  loot.mark itemSlot (fun marks => { marks with isBlocked := false, rollWinnerGUID := some winner })

def RolledLoot.unblock (loot : RolledLoot) (itemSlot : Nat) : RolledLoot :=
  loot.mark itemSlot (fun marks => { marks with isBlocked := false })

def RolledLoot.isLooted (loot : RolledLoot) : Bool := loot.gold == 0 && loot.unlootedCount == 0

-- Counting

/-- What a player gets: the item, what disenchanting it yields, or that by mail. -/
inductive Award where
  | item (winner : Nat)
  | disenchanted (winner : Nat)
  | mailed (winner : Nat)
deriving DecidableEq

/-- What CountTheRoll asks for: who is found and on the allowed map, what each draws, who has room
for the item, and the slot of the item.
-/
structure RollContext where
  present : Nat → Bool
  draw : Nat → Nat
  canStoreNewItem : Nat → Bool
  itemSlot : Nat

/-- The running maximum of a draw, and the total of the votes that take part in it. -/
structure Contest where
  total : Nat
  maxresul : Nat := 0
  maxguid : Option Nat := none
  rollvote : RollVote := .notValid
deriving DecidableEq

/-- What the end of a roll leaves: the loot, the awards, and whether its chest is deactivated. -/
structure RollOutcome where
  loot : RolledLoot
  awards : List Award
  chestDeactivated : Bool := false
deriving DecidableEq

namespace RollContext

variable (context : RollContext)

/-- One vote of a draw: a player who is not present is not counted any more. -/
def consider (counts : RollVote → Bool) (contest : Contest) (entry : (_ : Nat) × RollVote)
    : Contest :=
  if !counts entry.2 then contest
  else if !context.present entry.1 then { contest with total := toUInt8 (contest.total - 1) }
  else if contest.maxresul < context.draw entry.1 then
    { contest with
      maxresul := context.draw entry.1, maxguid := some entry.1, rollvote := entry.2 }
  else contest

def contest (votes : Table Nat RollVote) (counts : RollVote → Bool) (total : Nat) : Contest :=
  if total > 0 ∧ votes.entries ≠ [] then
    let drawn := votes.entries.foldl (context.consider counts) { total }
    if drawn.maxguid.isSome then drawn else { drawn with total := 0 }
  else { total }

/-- The winner gets the item, or it is reserved when there is no room for it. -/
def reward (loot : RolledLoot) (winner : Nat) : RollOutcome :=
  if context.canStoreNewItem winner then
    { loot := loot.take context.itemSlot, awards := [.item winner] }
  else { loot := loot.reserve context.itemSlot winner, awards := [] }

/-- The item is disenchanted for the winner, who gets the result by mail when there is no room. -/
def disenchant (loot : RolledLoot) (winner : Nat) : RollOutcome :=
  { loot := loot.take context.itemSlot
    awards := [if context.canStoreNewItem winner then .disenchanted winner else .mailed winner] }

def countVotes (roll : Roll) (loot : RolledLoot) : RollOutcome :=
  let need := context.contest roll.playerVote (· = .need) roll.totalNeed
  let needed : RollOutcome :=
    match need.maxguid with
    | some winner => context.reward loot winner
    | none => { loot, awards := [] }
  let greed :=
    if need.total = 0 then context.contest roll.playerVote RollVote.greedy roll.totalGreed
    else { total := roll.totalGreed }
  let drawn : RollOutcome :=
    match greed.maxguid with
    | some winner =>
        let won :=
          if greed.rollvote = .greed then context.reward needed.loot winner
          else context.disenchant needed.loot winner
        { won with awards := needed.awards ++ won.awards }
    | none => needed
  let left :=
    if need.total = 0 ∧ greed.total = 0 then
      { drawn with loot := drawn.loot.unblock context.itemSlot }
    else drawn
  { left with chestDeactivated := left.loot.isLooted && left.loot.sourceIsChest }

end RollContext

/-- CountTheRoll of the roll at a position: it is removed, and resolved as long as its loot is
there.
-/
def countTheRoll (context : RollContext) (rolls : List Roll) (position : Nat) (loot : RolledLoot)
    : List Roll × RollOutcome :=
  match rolls[position]? with
  | some roll =>
      (rolls.eraseIdx position,
        if roll.loot.isSome then context.countVotes roll loot else { loot, awards := [] })
  | none => (rolls, { loot, awards := [] })

-- The winner of a draw

/-- A present voter of those that count whose draw is not beaten by any other. -/
structure RollContext.Best (context : RollContext) (votes : Table Nat RollVote)
    (counts : RollVote → Bool) (winner : Nat) (vote : RollVote)
    : Prop where
  voted : votes.get? winner = some vote
  counted : counts vote = true
  present : context.present winner = true
  unbeaten : ∀ other vote, votes.get? other = some vote → counts vote = true →
    context.present other = true → context.draw other ≤ context.draw winner

section

variable {context : RollContext} {counts : RollVote → Bool}

def RollContext.absent (context : RollContext) (counts : RollVote → Bool)
    (entries : List ((_ : Nat) × RollVote))
    : Nat :=
  entries.countP (fun entry => counts entry.2 && !context.present entry.1)

/-- A draw after some of the votes: the total lacks those who are not present, and the maximum is
that of the present voters, if there was any.
-/
structure Standing (context : RollContext) (counts : RollVote → Bool) (total : Nat)
    (seen : List ((_ : Nat) × RollVote)) (contest : Contest)
    : Prop where
  total : contest.total + context.absent counts seen = total
  nobody : contest.maxguid = none → contest.maxresul = 0
    ∧ ∀ entry ∈ seen, counts entry.2 = true → context.present entry.1 = false
  best : ∀ winner, contest.maxguid = some winner → ⟨winner, contest.rollvote⟩ ∈ seen
    ∧ counts contest.rollvote = true ∧ context.present winner = true
    ∧ contest.maxresul = context.draw winner
  unbeaten : ∀ entry ∈ seen, counts entry.2 = true → context.present entry.1 = true →
    context.draw entry.1 ≤ contest.maxresul

theorem Standing.start (total : Nat)
    : Standing context counts total [] { total } where
  total := rfl
  nobody _ := ⟨rfl, fun _ member => by cases member⟩
  best _ found := by cases found
  unbeaten _ member := by cases member

/-- One more vote, by cases on whether it counts, whether its player is present and what he draws.
-/
theorem Standing.consider {total : Nat} {seen : List ((_ : Nat) × RollVote)} {contest : Contest}
    (standing : Standing context counts total seen contest) (byte : total < 2 ^ 8)
    (drawn : ∀ guid, 0 < context.draw guid) {entry : (_ : Nat) × RollVote}
    (covered : context.absent counts (seen ++ [entry]) ≤ total)
    : Standing context counts total (seen ++ [entry])
        (context.consider counts contest entry) := by
  have sum := standing.total
  have absent : context.absent counts (seen ++ [entry]) = context.absent counts seen
      + if counts entry.2 && !context.present entry.1 then 1 else 0 := by
    unfold RollContext.absent
    rw [List.countP_append, List.countP_singleton]
  have split (other : (_ : Nat) × RollVote) (member : other ∈ seen ++ [entry])
      : other ∈ seen ∨ other = entry :=
    (List.mem_append.mp member).imp_right List.mem_singleton.mp
  unfold RollContext.consider
  cases counted : counts entry.2 with
  | false =>
      rw [counted, Bool.false_and, if_neg Bool.false_ne_true] at absent
      rw [Bool.not_false, if_pos rfl]
      constructor
      case total => omega
      case nobody =>
        intro none
        refine ⟨(standing.nobody none).1, fun other member counts => ?_⟩
        rcases split other member with old | rfl
        · exact (standing.nobody none).2 other old counts
        · rw [counted] at counts
          cases counts
      case best =>
        intro winner found
        obtain ⟨listed, rest⟩ := standing.best winner found
        exact ⟨List.mem_append_left _ listed, rest⟩
      case unbeaten =>
        intro other member counts
        rcases split other member with old | rfl
        · exact standing.unbeaten other old counts
        · rw [counted] at counts
          cases counts
  | true =>
      rw [Bool.not_true, if_neg Bool.false_ne_true]
      cases here : context.present entry.1 with
      | false =>
          rw [counted, here, Bool.not_false, Bool.and_self, if_pos rfl] at absent
          rw [Bool.not_false, if_pos rfl]
          constructor
          case total =>
            dsimp only
            unfold toUInt8
            omega
          case nobody =>
            intro none
            refine ⟨(standing.nobody none).1, fun other member counts => ?_⟩
            rcases split other member with old | rfl
            · exact (standing.nobody none).2 other old counts
            · exact here
          case best =>
            intro winner found
            obtain ⟨listed, rest⟩ := standing.best winner found
            exact ⟨List.mem_append_left _ listed, rest⟩
          case unbeaten =>
            intro other member counts present
            rcases split other member with old | rfl
            · exact standing.unbeaten other old counts present
            · rw [here] at present
              cases present
      | true =>
          rw [here, Bool.not_true, Bool.and_false, if_neg Bool.false_ne_true] at absent
          rw [Bool.not_true, if_neg Bool.false_ne_true]
          split
          · next higher =>
              constructor
              case total =>
                dsimp only
                omega
              case nobody => exact fun none => by cases none
              case best =>
                intro winner found
                obtain rfl := Option.some.inj found
                exact ⟨List.mem_append_right _ (List.mem_singleton.mpr rfl), counted, here, rfl⟩
              case unbeaten =>
                intro other member counts present
                rcases split other member with old | rfl
                · exact (standing.unbeaten other old counts present).trans higher.le
                · exact le_rfl
          · next lower =>
              constructor
              case total => omega
              case nobody =>
                intro none
                have zero := (standing.nobody none).1
                have positive := drawn entry.1
                omega
              case best =>
                intro winner found
                obtain ⟨listed, rest⟩ := standing.best winner found
                exact ⟨List.mem_append_left _ listed, rest⟩
              case unbeaten =>
                intro other member counts present
                rcases split other member with old | rfl
                · exact standing.unbeaten other old counts present
                · exact Nat.not_lt.mp lower

/-- The draw over all votes, by induction along them. -/
theorem Standing.foldl {total : Nat} (byte : total < 2 ^ 8) (drawn : ∀ guid, 0 < context.draw guid)
    {seen rest : List ((_ : Nat) × RollVote)} {contest : Contest}
    (standing : Standing context counts total seen contest)
    (covered : context.absent counts (seen ++ rest) ≤ total)
    : Standing context counts total (seen ++ rest)
        (rest.foldl (context.consider counts) contest) := by
  induction rest generalizing seen contest with
  | nil =>
      rw [List.append_nil]
      exact standing
  | cons entry rest ih =>
      have joined : seen ++ entry :: rest = (seen ++ [entry]) ++ rest := by simp
      rw [joined] at covered ⊢
      refine ih (standing.consider byte drawn (Nat.le_trans ?_ covered)) covered
      exact (List.sublist_append_left _ _).countP_le

/-- The votes that count are those of absent and those of present players. -/
theorem absent_add (entries : List ((_ : Nat) × RollVote))
    : context.absent counts entries
        + entries.countP (fun entry => counts entry.2 && context.present entry.1)
      = entries.countP (fun entry => counts entry.2) := by
  unfold RollContext.absent
  induction entries with
  | nil => rfl
  | cons entry rest ih =>
      rw [List.countP_cons, List.countP_cons, List.countP_cons]
      cases counts entry.2 <;> cases context.present entry.1 <;> simp <;> omega

/-- What a draw comes to: nobody whose vote counts is present and the total is zero, or a best voter
wins and the total is not.
-/
theorem contest_cases {votes : Table Nat RollVote} {total : Nat} (byte : total < 2 ^ 8)
    (drawn : ∀ guid, 0 < context.draw guid) (covered : votes.count counts ≤ total)
    (empty : votes.entries = [] → total = 0)
    : (context.contest votes counts total).maxguid = none
        ∧ (context.contest votes counts total).total = 0
        ∧ (∀ guid vote, votes.get? guid = some vote → counts vote = true →
          context.present guid = false)
      ∨ ∃ winner, (context.contest votes counts total).maxguid = some winner
        ∧ (context.contest votes counts total).total ≠ 0
        ∧ context.Best votes counts winner (context.contest votes counts total).rollvote := by
  have number : votes.count counts = votes.entries.countP (fun entry => counts entry.2) := by
    unfold Table.count Table.values
    rw [List.countP_map]
    rfl
  have sum := @absent_add context counts votes.entries
  have within : context.absent counts ([] ++ votes.entries) ≤ total := by
    rw [List.nil_append]
    omega
  have standing := Standing.foldl byte drawn (Standing.start total) within
  rw [List.nil_append] at standing
  unfold RollContext.contest
  split
  · next going =>
      dsimp only
      cases found : (votes.entries.foldl (context.consider counts) { total }).maxguid with
      | none =>
          left
          rw [Option.isSome_none, if_neg Bool.false_ne_true]
          refine ⟨rfl, rfl, fun guid vote stored counted => ?_⟩
          exact (standing.nobody found).2 ⟨guid, vote⟩ (Table.get?_eq_some_iff.mp stored) counted
      | some winner =>
          right
          rw [Option.isSome_some, if_pos rfl]
          obtain ⟨listed, counted, present, value⟩ := standing.best winner found
          refine ⟨winner, found, ?_, ?_⟩
          · have takesPart : 0 < votes.entries.countP
                (fun entry => counts entry.2 && context.present entry.1) := by
              refine List.countP_pos_iff.mpr ⟨_, listed, ?_⟩
              rw [counted, present]
              rfl
            have left := standing.total
            omega
          · constructor
            case voted => exact Table.get?_eq_some_iff.mpr listed
            case counted => exact counted
            case present => exact present
            case unbeaten =>
              intro other vote stored counted' present'
              rw [← value]
              exact standing.unbeaten ⟨other, vote⟩ (Table.get?_eq_some_iff.mp stored) counted'
                present'
  · next nothing =>
      left
      have zero : total = 0 := by
        by_contra some'
        exact nothing ⟨Nat.pos_of_ne_zero some', fun none => some' (empty none)⟩
      refine ⟨rfl, zero, fun guid vote stored counted => ?_⟩
      have member := Table.get?_eq_some_iff.mp stored
      have positive : 0 < votes.entries.countP (fun entry => counts entry.2) :=
        List.countP_pos_iff.mpr ⟨_, member, counted⟩
      omega

end

-- The outcome of a roll

/-- The totals of a roll are bytes, count every vote, and are zero without votes. -/
structure Covered (roll : Roll) : Prop where
  bytes : roll.totalNeed < 2 ^ 8 ∧ roll.totalGreed < 2 ^ 8
  need : roll.playerVote.count (· = .need) ≤ roll.totalNeed
  greed : roll.playerVote.count RollVote.greedy ≤ roll.totalGreed
  empty : roll.playerVote.entries = [] → roll.totalNeed = 0 ∧ roll.totalGreed = 0

def RollContext.Present (context : RollContext) (votes : Table Nat RollVote)
    (counts : RollVote → Bool)
    : Prop :=
  ∃ guid vote, votes.get? guid = some vote ∧ counts vote = true ∧ context.present guid = true

/-- What the winner of an item gets: the item itself when he has room for it, which is looted then;
else it is free and reserved for him.
-/
def RollContext.Gets (context : RollContext) (before : RolledLoot) (winner : Nat)
    (outcome : RollOutcome)
    : Prop :=
  context.canStoreNewItem winner = true ∧ outcome.loot = before.take context.itemSlot
      ∧ outcome.awards = [.item winner]
    ∨ context.canStoreNewItem winner = false
      ∧ outcome.loot = before.reserve context.itemSlot winner ∧ outcome.awards = []

/-- What the winner of a disenchanted item gets: the item is looted, and he has what it yields, by
mail when he has no room.
-/
def RollContext.Disenchants (context : RollContext) (before : RolledLoot) (winner : Nat)
    (outcome : RollOutcome)
    : Prop :=
  outcome.loot = before.take context.itemSlot
    ∧ (context.canStoreNewItem winner = true ∧ outcome.awards = [.disenchanted winner]
      ∨ context.canStoreNewItem winner = false ∧ outcome.awards = [.mailed winner])

structure Resolved (context : RollContext) (roll : Roll) (before : RolledLoot)
    (outcome : RollOutcome)
    : Prop where
  need : context.Present roll.playerVote (· = .need) →
    ∃ winner, context.Best roll.playerVote (· = .need) winner .need
      ∧ context.Gets before winner outcome
  greed : ¬context.Present roll.playerVote (· = .need) →
    context.Present roll.playerVote RollVote.greedy →
      ∃ winner, context.Best roll.playerVote RollVote.greedy winner .greed
          ∧ context.Gets before winner outcome
        ∨ context.Best roll.playerVote RollVote.greedy winner .disenchant
          ∧ context.Disenchants before winner outcome
  passed : ¬context.Present roll.playerVote (· = .need) →
    ¬context.Present roll.playerVote RollVote.greedy →
      outcome.loot = before.unblock context.itemSlot ∧ outcome.awards = []

section

variable {context : RollContext} {roll : Roll}

theorem RollContext.reward_gets (context : RollContext) (loot : RolledLoot) (winner : Nat)
    : context.Gets loot winner (context.reward loot winner) := by
  unfold RollContext.reward
  cases room : context.canStoreNewItem winner with
  | true => exact .inl ⟨room, rfl, rfl⟩
  | false => exact .inr ⟨room, rfl, rfl⟩

theorem RollContext.disenchant_disenchants (context : RollContext) (loot : RolledLoot)
    (winner : Nat)
    : context.Disenchants loot winner (context.disenchant loot winner) := by
  unfold RollContext.disenchant
  refine ⟨rfl, ?_⟩
  cases room : context.canStoreNewItem winner with
  | true => exact .inl ⟨rfl, rfl⟩
  | false => exact .inr ⟨rfl, rfl⟩

theorem RollVote.eq_disenchant {vote : RollVote} (greedy : vote.greedy = true)
    (other : vote ≠ .greed)
    : vote = .disenchant := by
  unfold RollVote.greedy at greedy
  simpa [other] using greedy

/-- Nobody is present for a draw that ended without a winner. -/
theorem not_present {counts : RollVote → Bool}
    (nobody : ∀ guid vote, roll.playerVote.get? guid = some vote → counts vote = true →
      context.present guid = false)
    : ¬context.Present roll.playerVote counts := by
  rintro ⟨guid, vote, stored, counted, present⟩
  rw [nobody guid vote stored counted] at present
  cases present

/-- The votes of a roll that its totals cover are counted to one outcome. -/
theorem Covered.resolved (covered : Covered roll) (drawn : ∀ guid, 0 < context.draw guid)
    (loot : RolledLoot)
    : Resolved context roll loot (context.countVotes roll loot) := by
  rcases contest_cases covered.bytes.1 drawn covered.need (fun none => (covered.empty none).1)
    with ⟨unwon, zero, nobody⟩ | ⟨winner, won, positive, best⟩
  · have needless : ¬context.Present roll.playerVote (· = .need) := not_present nobody
    rcases contest_cases covered.bytes.2 drawn covered.greed (fun none => (covered.empty none).2)
      with ⟨unwon', zero', nobody'⟩ | ⟨winner, won, positive, best⟩
    · have passed : (context.countVotes roll loot).loot = loot.unblock context.itemSlot
          ∧ (context.countVotes roll loot).awards = [] := by
        unfold RollContext.countVotes
        simp only [unwon, zero, if_true, unwon', zero', and_self]
      exact ⟨fun present => (needless present).elim,
        fun _ present => (not_present nobody' present).elim, fun _ _ => passed⟩
    · have present : context.Present roll.playerVote RollVote.greedy :=
        ⟨winner, _, best.voted, best.counted, best.present⟩
      refine ⟨fun present => (needless present).elim, fun _ _ => ⟨winner, ?_⟩,
        fun _ absent => (absent present).elim⟩
      by_cases greeds : (context.contest roll.playerVote RollVote.greedy roll.totalGreed).rollvote
          = .greed
      · left
        rw [greeds] at best
        refine ⟨best, ?_⟩
        have gets := context.reward_gets loot winner
        unfold RollContext.countVotes
        simp only [unwon, zero, if_true, won, greeds, positive, and_false, if_false,
          List.nil_append]
        exact gets
      · right
        have disenchants : (context.contest roll.playerVote RollVote.greedy
            roll.totalGreed).rollvote = .disenchant :=
          RollVote.eq_disenchant best.counted greeds
        rw [disenchants] at best
        refine ⟨best, ?_⟩
        have gets := context.disenchant_disenchants loot winner
        unfold RollContext.countVotes
        simp only [unwon, zero, if_true, won, greeds, positive, and_false, if_false,
          List.nil_append]
        exact gets
  · have needed : (context.contest roll.playerVote (· = .need) roll.totalNeed).rollvote = .need :=
      of_decide_eq_true best.counted
    rw [needed] at best
    have present : context.Present roll.playerVote (· = .need) :=
      ⟨winner, _, best.voted, best.counted, best.present⟩
    refine ⟨fun _ => ⟨winner, best, ?_⟩, fun absent => (absent present).elim,
      fun absent => (absent present).elim⟩
    have gets := context.reward_gets loot winner
    unfold RollContext.countVotes
    simp only [won, positive, if_false, false_and]
    exact gets

end

/-- A roll of valid loot whose totals cover its votes is removed with exactly one outcome. If a
player who needs the item is present, one of these with the highest draw gets it, or has it reserved
when he has no room. Otherwise one of the present players who voted greed or disenchant does, with
the highest draw of them; what disenchanting yields is stored or mailed. Otherwise the item is free
for all.
-/
theorem rolls_resolve_to_one_outcome {rolls : List Roll} {position : Nat} {roll : Roll}
    (here : rolls[position]? = some roll) (valid : roll.loot.isSome = true)
    (covered : Covered roll) (context : RollContext) (drawn : ∀ guid, 0 < context.draw guid)
    (loot : RolledLoot)
    : (countTheRoll context rolls position loot).1 = rolls.eraseIdx position
      ∧ Resolved context roll loot (countTheRoll context rolls position loot).2 := by
  unfold countTheRoll
  rw [here]
  dsimp only
  rw [if_pos valid]
  exact ⟨rfl, covered.resolved drawn loot⟩

/-- A roll of three: the first player needs the item, the second is greedy, the third passes. -/
def rollOfThree : Roll where
  itemGUID := 100
  loot := some { loot := 7, itemsEmpty := false }
  playerVote := ((Table.emplace ∅ 1 .need).emplace 2 .greed).emplace 3 .pass
  totalPlayersRolling := 3
  totalNeed := 1
  totalGreed := 1
  totalPass := 1

theorem rollOfThree_covered : Covered rollOfThree := by
  constructor <;> decide

def firstIsOffline : RollContext where
  present guid := guid != 1
  draw guid := guid + 1
  canStoreNewItem _ := true
  itemSlot := 0

theorem rolls_resolve_to_one_outcome_applied
    : (countTheRoll firstIsOffline [rollOfThree] 0 { items := [{}], unlootedCount := 1 }).1 = []
      ∧ Resolved firstIsOffline rollOfThree { items := [{}], unlootedCount := 1 }
        (countTheRoll firstIsOffline [rollOfThree] 0 { items := [{}], unlootedCount := 1 }).2 :=
  @rolls_resolve_to_one_outcome [rollOfThree] 0 rollOfThree rfl rfl rollOfThree_covered
    firstIsOffline (fun guid => Nat.succ_pos guid) { items := [{}], unlootedCount := 1 }

/-- Somebody needs the item, but he is offline: the greedy player gets it. -/
theorem absent_need_loses_to_greed
    : ¬ ∀ (roll : Roll) (context : RollContext) (loot : RolledLoot), Covered roll →
        (∀ guid, 0 < context.draw guid) → (∃ guid, roll.playerVote.get? guid = some .need) →
          ∃ winner, roll.playerVote.get? winner = some .need
            ∧ context.Gets loot winner (context.countVotes roll loot) := by
  intro claim
  have outcome : (firstIsOffline.countVotes rollOfThree
      { items := [{}], unlootedCount := 1 }).awards = [.item 2] := by decide
  obtain ⟨winner, needs, gets⟩ := claim rollOfThree firstIsOffline
    { items := [{}], unlootedCount := 1 } rollOfThree_covered (fun guid => Nat.succ_pos guid)
    ⟨1, by decide⟩
  rcases gets with ⟨-, -, awarded⟩ | ⟨-, -, nothing⟩
  · rw [outcome] at awarded
    have second : 2 = winner := by simpa using awarded
    rw [← second] at needs
    revert needs
    decide
  · rw [outcome] at nothing
    cases nothing

end WarheadCore.Groups
