import WarheadCore.Groups.LootRolls
import WarheadCore.Groups.SubgroupCounters

/-! The tallies of a loot roll against its votes. Votes are counted without a look at the mask or
at an earlier vote, so the tallies hold as long as players vote once and as the mask allows.
-/

namespace WarheadCore.Groups

open Foundation Foundation.Records Foundation.Runs

def RollVote.greedy (vote : RollVote) : Bool := vote = .greed || vote = .disenchant

structure Tallied (roll : Roll) : Prop where
  rolling : roll.totalPlayersRolling = roll.playerVote.count (fun _ => true)
  need : roll.totalNeed = roll.playerVote.count (· = .need)
  greed : roll.totalGreed = roll.playerVote.count RollVote.greedy
  pass : roll.totalPass = roll.playerVote.count (· = .pass)

def TalliesHold (looting : LootGroup) : Prop :=
  ∀ roll ∈ looting.rolls ++ looting.ended, Tallied roll

def Roll.allows (roll : Roll) (choice : Nat) : Bool := roll.rollVoteMask.getLsbD choice

def Roll.Complete (roll : Roll) : Prop :=
  ∀ guid, roll.playerVote.get? guid ≠ some .notEmitedYet

def LootGroup.endedSince (after before : LootGroup) : List Roll :=
  after.ended.drop before.ended.length

/-- A vote of CMSG_LOOT_ROLL: every roll is as it was, or it is the roll of the item with the vote
of a player who had not voted, as the mask allows; and a roll that ends is complete.
-/
structure VoteLaw (looting after : LootGroup) (player item choice : Nat) : Prop where
  counted : ∀ roll ∈ after.rolls ++ after.endedSince looting, roll ∈ looting.rolls ∨
    ∃ before ∈ looting.rolls, ∃ vote ∈ RollVote.ofChoice choice,
      before.itemGUID = item ∧ before.playerVote.get? player = some .notEmitedYet
        ∧ before.allows choice = true
        ∧ roll.playerVote = before.playerVote.modify player (fun _ => vote)
  complete : ∀ roll ∈ after.endedSince looting, roll.Complete

def RollLaw (looting : LootGroup) : LootStep → Prop
  | .lootRoll player item choice =>
      VoteLaw looting (looting.countRollVote player item choice) player item choice
  | .group input => ∀ roll ∈ (looting.groupStep input).endedSince looting, roll.Complete
  | _ => True

-- The condition

/-- Votes that reach a roll, that is a player in the map of valid loot with items, are the first
ones of their players, and allowed by the mask.
-/
def VotesOnce (looting : LootGroup) : LootStep → Prop
  | .lootRoll player item choice =>
      choice < maxRollType → ∀ roll ∈ looting.getRoll item, roll.itemsEmpty = false →
        ∀ earlier ∈ roll.playerVote.get? player,
          earlier = .notEmitedYet ∧ roll.allows choice = true
  | _ => True

instance (looting : LootGroup) : (input : LootStep) → Decidable (VotesOnce looting input)
  | .lootRoll player item choice => inferInstanceAs (Decidable
      (choice < maxRollType → ∀ roll ∈ looting.getRoll item, roll.itemsEmpty = false →
        ∀ earlier ∈ roll.playerVote.get? player,
          earlier = .notEmitedYet ∧ roll.allows choice = true))
  | .group .. | .groupLoot .. | .needBeforeGreed .. | .endRoll .. | .lootGone .. => .isTrue trivial

-- Rolls

/-- A roll whose tallies count its votes, of at most so many players. -/
structure Fair (limit : Nat) (roll : Roll) : Prop where
  tallied : Tallied roll
  few : roll.playerVote.count (fun _ => true) ≤ limit
  valid : ∀ guid, roll.playerVote.get? guid ≠ some .notValid

/-- No count exceeds the number of all players. -/
theorem Fair.count_le {limit : Nat} {roll : Roll} (fair : Fair limit roll)
    (wanted : RollVote → Bool)
    : roll.playerVote.count wanted ≤ limit := by
  refine le_trans ?_ fair.few
  exact List.countP_mono_left (fun _ _ _ => rfl)

theorem Fair.weaken {limit larger : Nat} {roll : Roll} (fair : Fair limit roll)
    (le : limit ≤ larger)
    : Fair larger roll :=
  { fair with few := fair.few.trans le }

/-- A vote is one of pass, need, greed, disenchant, or not given yet, or not valid. -/
theorem count_kinds (votes : Table Nat RollVote)
    : votes.count (fun _ => true) = votes.count (· = .pass) + votes.count (· = .need)
        + votes.count RollVote.greedy + votes.count (· = .notEmitedYet)
        + votes.count (· = .notValid) := by
  unfold Table.count
  induction votes.values with
  | nil => rfl
  | cons vote rest ih =>
      simp only [List.countP_cons, ih]
      cases vote <;> simp [RollVote.greedy] <;> omega

theorem count_eq_zero {votes : Table Nat RollVote} {vote : RollVote}
    : votes.count (· = vote) = 0 ↔ ∀ guid, votes.get? guid ≠ some vote := by
  unfold Table.count
  rw [List.countP_eq_zero]
  constructor
  · intro none guid found
    exact none vote (Table.mem_values_iff.mpr ⟨guid, found⟩) (decide_eq_true rfl)
  · intro never stored member same
    obtain ⟨guid, found⟩ := Table.mem_values_iff.mp member
    obtain rfl := of_decide_eq_true same
    exact never guid found

/-- The votes make up for the rolling players exactly when everyone has voted. -/
theorem Fair.complete {limit : Nat} {roll : Roll} (fair : Fair limit roll)
    (voted : roll.everyoneVoted = true)
    : roll.Complete := by
  refine count_eq_zero.mp ?_
  have kinds := count_kinds roll.playerVote
  have invalid : roll.playerVote.count (· = .notValid) = 0 := count_eq_zero.mpr fair.valid
  unfold Roll.everyoneVoted at voted
  rw [decide_eq_true_iff, fair.tallied.rolling, fair.tallied.need, fair.tallied.greed,
    fair.tallied.pass] at voted
  omega

theorem toUInt8_succ {n : Nat} (small : n ≤ maxRaidSize) : toUInt8 ((n : Int) + 1) = n + 1 := by
  have sum : (n : Int) + 1 = (n + 1 : Nat) := rfl
  have limit : maxRaidSize = 40 := rfl
  rw [sum, toUInt8_of_lt (by omega)]

theorem toUInt8_pred {n : Nat} (small : n ≤ maxRaidSize) (positive : 0 < n)
    : toUInt8 ((n : Int) - 1) = n - 1 := by
  have difference : (n : Int) - 1 = (n - 1 : Nat) := by omega
  have limit : maxRaidSize = 40 := rfl
  rw [difference, toUInt8_of_lt (by omega)]

theorem Fair.addPlayer {limit : Nat} {roll : Roll} (fair : Fair limit roll)
    (small : limit < maxRaidSize) {guid : Nat} (absent : roll.playerVote.get? guid = none)
    (passes : Bool)
    : Fair (limit + 1) (roll.addPlayer guid passes) := by
  have number (wanted : RollVote → Bool) :=
    Table.count_put absent (if passes then .pass else .notEmitedYet) wanted
  have all := fair.few
  have tallied := fair.tallied
  refine ⟨⟨?_, ?_, ?_, ?_⟩, ?_, fun other found => ?_⟩
  · unfold Roll.addPlayer
    rw [number, if_pos rfl, tallied.rolling]
    exact toUInt8_succ (all.trans small.le)
  · unfold Roll.addPlayer
    rw [number, tallied.need]
    cases passes <;> rfl
  · unfold Roll.addPlayer
    rw [number, tallied.greed]
    cases passes <;> rfl
  · unfold Roll.addPlayer
    rw [number, tallied.pass]
    cases passes with
    | false => rfl
    | true => exact toUInt8_succ ((fair.count_le _).trans small.le)
  · unfold Roll.addPlayer
    rw [number, if_pos rfl]
    exact Nat.succ_le_succ all
  · unfold Roll.addPlayer at found
    rw [Table.get?_put] at found
    split at found
    · cases passes <;> cases found
    · exact fair.valid other found

theorem RollVote.ofChoice_given {choice : Nat} {vote : RollVote}
    (chosen : RollVote.ofChoice choice = some vote)
    : vote ≠ .notEmitedYet ∧ vote ≠ .notValid := by
  unfold RollVote.ofChoice at chosen
  split at chosen <;> cases chosen <;> decide

theorem Roll.playerVote_vote (roll : Roll) (player : Nat) {vote : RollVote}
    (given : vote ≠ .notEmitedYet ∧ vote ≠ .notValid)
    : (roll.vote player vote).playerVote = roll.playerVote.modify player (fun _ => vote) := by
  cases vote with
  | pass | need | greed | disenchant => rfl
  | notEmitedYet => exact absurd rfl given.1
  | notValid => exact absurd rfl given.2

/-- The first vote of a player is counted once. -/
theorem Fair.vote {limit : Nat} {roll : Roll} (fair : Fair limit roll) (small : limit ≤ maxRaidSize)
    {player : Nat} (first : roll.playerVote.get? player = some .notEmitedYet) {vote : RollVote}
    (given : vote ≠ .notEmitedYet ∧ vote ≠ .notValid)
    : Fair limit (roll.vote player vote) := by
  have number (wanted : RollVote → Bool) := Table.count_modify first (fun _ => vote) wanted
  have all := number (fun _ => true)
  have need := number (· = .need)
  have greed := number RollVote.greedy
  have pass := number (· = .pass)
  have tallied := fair.tallied
  have next {total : Nat} {wanted : RollVote → Bool} (same : total = roll.playerVote.count wanted)
      : toUInt8 (total + 1) = roll.playerVote.count wanted + 1 := by
    rw [same]
    exact toUInt8_succ ((fair.count_le wanted).trans small)
  have valid (guid : Nat) : (roll.vote player vote).playerVote.get? guid ≠ some .notValid := by
    rw [roll.playerVote_vote player given, Table.get?_modify]
    split
    · rename_i here
      rw [here, first, Option.map_some]
      exact fun same => given.2 (Option.some.inj same)
    · exact fair.valid guid
  cases vote
  case notEmitedYet => exact absurd rfl given.1
  case notValid => exact absurd rfl given.2
  all_goals
    simp only [RollVote.greedy, decide_true, decide_false, Bool.or_false, Bool.or_true, if_true,
      if_false, reduceCtorEq, Bool.false_eq_true, Nat.add_zero, Nat.add_right_cancel_iff]
      at all need greed pass
  case pass =>
    exact ⟨⟨tallied.rolling.trans all.symm, tallied.need.trans need.symm,
      tallied.greed.trans greed.symm, (next tallied.pass).trans pass.symm⟩,
      all.trans_le fair.few, valid⟩
  case need =>
    exact ⟨⟨tallied.rolling.trans all.symm, (next tallied.need).trans need.symm,
      tallied.greed.trans greed.symm, tallied.pass.trans pass.symm⟩,
      all.trans_le fair.few, valid⟩
  case greed | disenchant =>
    exact ⟨⟨tallied.rolling.trans all.symm, tallied.need.trans need.symm,
      (next tallied.greed).trans greed.symm, tallied.pass.trans pass.symm⟩,
      all.trans_le fair.few, valid⟩

/-- A player who leaves takes his vote with him. -/
theorem Fair.leave {limit : Nat} {roll : Roll} (fair : Fair limit roll) (small : limit ≤ maxRaidSize)
    {player : Nat} {vote : RollVote} (found : roll.playerVote.get? player = some vote)
    : Fair limit (roll.leave player vote) := by
  have number (wanted : RollVote → Bool) := Table.count_remove found wanted
  have all := number (fun _ => true)
  have need := number (· = .need)
  have greed := number RollVote.greedy
  have pass := number (· = .pass)
  have tallied := fair.tallied
  have less {total count : Nat} {wanted : RollVote → Bool}
      (same : total = roll.playerVote.count wanted)
      (one : count + 1 = roll.playerVote.count wanted)
      : toUInt8 (total - 1) = count := by
    rw [same, toUInt8_pred ((fair.count_le wanted).trans small) (by omega)]
    omega
  have given : vote ≠ .notValid := by
    rintro rfl
    exact fair.valid player found
  have votes : (roll.leave player vote).playerVote = roll.playerVote.remove player := by
    cases vote <;> rfl
  have valid (guid : Nat) : (roll.leave player vote).playerVote.get? guid ≠ some .notValid := by
    rw [votes, Table.get?_remove]
    split
    · simp
    · exact fair.valid guid
  have few : (roll.leave player vote).playerVote.count (fun _ => true) ≤ limit := by
    rw [votes]
    exact (Nat.le_add_right _ _).trans (all.trans_le fair.few)
  cases vote
  case notValid => exact absurd rfl given
  all_goals
    simp only [RollVote.greedy, decide_true, decide_false, Bool.or_false, Bool.or_true, if_true,
      if_false, reduceCtorEq, Bool.false_eq_true, Nat.add_zero] at all need greed pass
  case pass =>
    exact ⟨⟨less tallied.rolling all, tallied.need.trans need.symm,
      tallied.greed.trans greed.symm, less tallied.pass pass⟩, few, valid⟩
  case need =>
    exact ⟨⟨less tallied.rolling all, less tallied.need need,
      tallied.greed.trans greed.symm, tallied.pass.trans pass.symm⟩, few, valid⟩
  case greed | disenchant =>
    exact ⟨⟨less tallied.rolling all, tallied.need.trans need.symm,
      less tallied.greed greed, tallied.pass.trans pass.symm⟩, few, valid⟩
  case notEmitedYet =>
    exact ⟨⟨less tallied.rolling all, tallied.need.trans need.symm,
      tallied.greed.trans greed.symm, tallied.pass.trans pass.symm⟩, few, valid⟩

-- New rolls

/-- Places in so many subgroups, each within a limit. Witness: the last subgroup is taken away. -/
theorem length_le_of_subgroups {limit subgroups : Nat} {places : List (Nat × Nat)}
    (inRange : ∀ place ∈ places, place.2 < subgroups)
    (small : ∀ g, inSubgroup places g ≤ limit)
    : places.length ≤ subgroups * limit := by
  induction subgroups generalizing places with
  | zero =>
      cases places with
      | nil => exact Nat.zero_le _
      | cons place rest => exact absurd (inRange place List.mem_cons_self) (Nat.not_lt_zero _)
  | succ last ih =>
      have split := places.length_eq_countP_add_countP (fun place => place.2 == last)
      have here : places.countP (fun place => place.2 == last) ≤ limit := small last
      have others : (places.filter (fun place => place.2 != last)).length ≤ last * limit := by
        refine ih (fun place member => ?_) (fun g => ?_)
        · obtain ⟨there, different⟩ := List.mem_filter.mp member
          have range := inRange place there
          have apart : place.2 ≠ last := by simpa using different
          omega
        · exact (List.Sublist.countP_le List.filter_sublist).trans (small g)
      rw [← List.countP_eq_length_filter] at others
      have same : places.countP (fun place => ¬(place.2 == last) = true)
          = places.countP (fun place => place.2 != last) := by
        congr 1
        funext place
        by_cases here : place.2 = last <;> simp [here]
      rw [Nat.succ_mul]
      omega

theorem Sound.length_le {live : LiveGroup} (sound : Sound live)
    : live.group.memberSlots.length ≤ maxRaidSize := by
  have bounded := length_le_of_subgroups sound.arranged.inRange sound.arranged.small
  unfold Group.places at bounded
  rwa [List.length_map] at bounded

/-- A new roll counts the members who roll, each once. -/
theorem newRoll_fair {live : LiveGroup} (sound : Sound live) (itemGUID : Nat)
    (settings : LootSettings) (item : LootItem) (passes : Nat → Bool)
    : Fair maxRaidSize (live.group.newRoll itemGUID settings item passes) := by
  have grow {limit : Nat} {roll : Roll} (fair : Fair limit roll) (slots : List MemberSlot)
      (distinct : (slots.map MemberSlot.guid).Nodup)
      (absent : ∀ slot ∈ slots, roll.playerVote.get? slot.guid = none)
      (small : limit + slots.length ≤ maxRaidSize)
      : Fair (limit + slots.length) (slots.foldl (fun roll slot =>
          if settings.isAtLootRewardDistance slot.guid && item.allowedForPlayer slot.guid then
            roll.addPlayer slot.guid (passes slot.guid)
          else roll) roll) := by
    induction slots generalizing limit roll with
    | nil => exact fair
    | cons slot rest ih =>
        rw [List.map_cons, List.nodup_cons] at distinct
        rw [List.length_cons] at small ⊢
        have later : ∀ next ∈ rest, roll.playerVote.get? next.guid = none :=
          fun next member => absent next (List.mem_cons_of_mem _ member)
        have larger : limit + (rest.length + 1) = limit + 1 + rest.length := by omega
        rw [List.foldl_cons, larger]
        split
        · refine ih (fair.addPlayer (by omega) (absent slot List.mem_cons_self) _) distinct.2
            (fun next member => ?_) (by omega)
          unfold Roll.addPlayer
          rw [Table.get?_put, if_neg]
          · exact later next member
          · intro same
            exact distinct.1 (same ▸ List.mem_map_of_mem member)
        · exact ih (fair.weaken (Nat.le_succ _)) distinct.2 later (by omega)
  have empty : Fair 0 { itemGUID } := ⟨⟨rfl, rfl, rfl, rfl⟩, le_rfl, fun _ => nofun⟩
  have length := sound.length_le
  exact (grow empty live.group.memberSlots sound.distinctSlots (fun _ _ => rfl)
    (by omega)).weaken (by omega)

-- Steps

/-- A looting group: its members arranged, its rolls fair, and those that ended tallied. -/
structure Looting (looting : LootGroup) : Prop where
  sound : SoundState looting.state
  fair : ∀ roll ∈ looting.rolls, Fair maxRaidSize roll
  ended : ∀ roll ∈ looting.ended, Tallied roll

/-- What a vote does: nothing, or it replaces the roll of the item, or it ends it. -/
theorem countRollVote_cases (looting : LootGroup) (player item choice : Nat)
    : looting.countRollVote player item choice = looting
      ∨ ∃ roll, looting.getRoll item = some roll ∧ roll.itemsEmpty = false
          ∧ (choice < maxRollType → ∃ earlier, roll.playerVote.get? player = some earlier)
          ∧ (((roll.castVote player choice).everyoneVoted = true
              ∧ looting.countRollVote player item choice
                = { looting with
                    rolls := erase Roll.handle looting.rolls (item, true)
                    ended := looting.ended ++ [roll.castVote player choice] })
            ∨ looting.countRollVote player item choice
                = { looting with
                    rolls := update Roll.handle (item, true)
                      (fun _ => roll.castVote player choice) looting.rolls }) := by
  unfold LootGroup.countRollVote
  cases found : looting.getRoll item with
  | none => exact .inl rfl
  | some roll =>
      dsimp only
      split
      · exact .inl rfl
      rename_i inMap
      split
      · exact .inl rfl
      rename_i hasItems
      refine .inr ⟨roll, rfl, by simpa using hasItems, fun chosen => ?_, ?_⟩
      · rw [not_and, Option.isNone_iff_eq_none] at inMap
        exact Option.ne_none_iff_exists'.mp (inMap chosen)
      · split
        · rename_i everyone
          exact .inl ⟨everyone, rfl⟩
        · exact .inr rfl

/-- A first vote leaves a fair roll, with the vote in it. -/
theorem castVote_spec {looting : LootGroup} {player item choice : Nat} {roll : Roll}
    (once : VotesOnce looting (.lootRoll player item choice))
    (found : looting.getRoll item = some roll) (hasItems : roll.itemsEmpty = false)
    (inMap : choice < maxRollType → ∃ earlier, roll.playerVote.get? player = some earlier)
    (fair : Fair maxRaidSize roll)
    : Fair maxRaidSize (roll.castVote player choice)
      ∧ (roll.castVote player choice = roll
        ∨ ∃ vote ∈ RollVote.ofChoice choice,
            roll.playerVote.get? player = some .notEmitedYet ∧ roll.allows choice = true
              ∧ (roll.castVote player choice).playerVote
                = roll.playerVote.modify player (fun _ => vote)) := by
  unfold Roll.castVote
  cases chosen : RollVote.ofChoice choice with
  | none => exact ⟨fair, .inl rfl⟩
  | some vote =>
      have small : choice < maxRollType := by
        unfold RollVote.ofChoice at chosen
        split at chosen
        case h_5 => cases chosen
        all_goals decide
      obtain ⟨earlier, stored⟩ := inMap small
      obtain ⟨rfl, allowed⟩ := once small roll found hasItems earlier stored
      have given := RollVote.ofChoice_given chosen
      exact ⟨fair.vote le_rfl stored given,
        .inr ⟨vote, rfl, stored, allowed, roll.playerVote_vote player given⟩⟩

theorem endedSince_append {after before : LootGroup} {ended : List Roll}
    (same : after.ended = before.ended ++ ended)
    : after.endedSince before = ended := by
  unfold LootGroup.endedSince
  rw [same, List.drop_left]

/-- A vote that its player casts once keeps the rolls fair and obeys the law of votes. -/
theorem Looting.countRollVote {looting : LootGroup} (good : Looting looting)
    {player item choice : Nat} (once : VotesOnce looting (.lootRoll player item choice))
    : Looting (looting.countRollVote player item choice)
      ∧ RollLaw looting (.lootRoll player item choice) := by
  rcases countRollVote_cases looting player item choice with
    same | ⟨roll, found, hasItems, inMap, outcome⟩
  · have none : (looting.countRollVote player item choice).endedSince looting = [] :=
      endedSince_append (by rw [same, List.append_nil])
    refine ⟨same.symm ▸ good, ⟨fun roll member => .inl ?_, fun roll member => ?_⟩⟩
    · rwa [none, List.append_nil, same] at member
    · rw [none] at member
      cases member
  · obtain ⟨member, key⟩ := mem_of_find found
    have itemGUID : roll.itemGUID = item := (Prod.ext_iff.mp key).1
    obtain ⟨fair, change⟩ := castVote_spec once found hasItems inMap (good.fair roll member)
    have counted : roll.castVote player choice ∈ looting.rolls ∨
        ∃ before ∈ looting.rolls, ∃ vote ∈ RollVote.ofChoice choice,
          before.itemGUID = item ∧ before.playerVote.get? player = some .notEmitedYet
            ∧ before.allows choice = true
            ∧ (roll.castVote player choice).playerVote
              = before.playerVote.modify player (fun _ => vote) := by
      rcases change with same | ⟨vote, chosen, first, allowed, votes⟩
      · exact .inl (same.symm ▸ member)
      · exact .inr ⟨roll, member, vote, chosen, itemGUID, first, allowed, votes⟩
    refine ⟨?_, (?_ : VoteLaw looting (looting.countRollVote player item choice) player item choice)⟩
    · rcases outcome with ⟨_, same⟩ | same
      · rw [same]
        refine ⟨good.sound, fun other there => ?_, fun other there => ?_⟩
        · exact good.fair other ((erase_sublist _ _).subset there)
        · rcases List.mem_append.mp there with old | new
          · exact good.ended other old
          · exact List.mem_singleton.mp new ▸ fair.tallied
      · rw [same]
        refine ⟨good.sound, fun other there => ?_, good.ended⟩
        rcases mem_update there with old | ⟨_, _, rfl⟩
        · exact good.fair other old
        · exact fair
    · rcases outcome with ⟨everyone, same⟩ | same
      · have endedNow : (looting.countRollVote player item choice).endedSince looting
            = [roll.castVote player choice] := endedSince_append (by rw [same])
        constructor
        case counted =>
          intro other there
          rw [endedNow, same] at there
          rcases List.mem_append.mp there with open_ | new
          · exact .inl ((erase_sublist _ _).subset open_)
          · exact List.mem_singleton.mp new ▸ counted
        case complete =>
          intro other there
          rw [endedNow] at there
          exact List.mem_singleton.mp there ▸ fair.complete everyone
      · have endedNow : (looting.countRollVote player item choice).endedSince looting = [] :=
          endedSince_append (by rw [same, List.append_nil])
        constructor
        case counted =>
          intro other there
          rw [endedNow, same, List.append_nil] at there
          rcases mem_update there with old | ⟨_, _, rfl⟩
          · exact .inl old
          · exact counted
        case complete =>
          intro other there
          rw [endedNow] at there
          cases there

/-- A departure keeps the rolls that go on fair, and ends only complete ones. -/
theorem leaveRolls_fair (player : Nat) {rolls : List Roll}
    (fair : ∀ roll ∈ rolls, Fair maxRaidSize roll)
    : (∀ roll ∈ (leaveRolls player rolls).1, Fair maxRaidSize roll)
      ∧ ∀ roll ∈ (leaveRolls player rolls).2, Fair maxRaidSize roll ∧ roll.Complete := by
  induction rolls with
  | nil => exact ⟨fun _ => nofun, fun _ => nofun⟩
  | cons roll rest ih =>
      obtain ⟨going, ended⟩ := ih (fun other member => fair other (List.mem_cons_of_mem _ member))
      have here := fair roll List.mem_cons_self
      unfold leaveRolls
      dsimp only
      cases found : roll.playerVote.get? player with
      | none => exact ⟨List.forall_mem_cons.mpr ⟨here, going⟩, ended⟩
      | some vote =>
          have left := here.leave le_rfl found
          dsimp only
          split
          · rename_i ends
            rw [Bool.and_eq_true] at ends
            exact ⟨going, List.forall_mem_cons.mpr ⟨⟨left, left.complete ends.2⟩, ended⟩⟩
          · exact ⟨List.forall_mem_cons.mpr ⟨left, going⟩, ended⟩

theorem Looting.groupStep {looting : LootGroup} (good : Looting looting) (input : GroupStep)
    : Looting (looting.groupStep input) ∧ RollLaw looting (.group input) := by
  have unchanged : Looting looting ∧ ∀ roll ∈ looting.endedSince looting, roll.Complete := by
    refine ⟨good, fun roll member => ?_⟩
    rw [endedSince_append (List.append_nil _).symm] at member
    cases member
  have outcome (group : Group) : (∀ roll ∈ (group.rollsAfter looting.rolls input).1, Fair maxRaidSize roll)
      ∧ ∀ roll ∈ (group.rollsAfter looting.rolls input).2, Fair maxRaidSize roll ∧ roll.Complete := by
    have kept : (∀ roll ∈ looting.rolls, Fair maxRaidSize roll)
        ∧ ∀ roll ∈ ([] : List Roll), Fair maxRaidSize roll ∧ roll.Complete :=
      ⟨good.fair, fun _ => nofun⟩
    unfold Group.rollsAfter
    split
    · split
      · exact kept
      generalize (if (group.battle || group.lfg) = true then 1 else 2) = limit
      split
      · exact leaveRolls_fair _ good.fair
      · exact kept
    · exact ⟨fun _ => nofun, fun _ => nofun⟩
    · exact kept
  refine ⟨?_, (?_ : ∀ roll ∈ (looting.groupStep input).endedSince looting, roll.Complete)⟩
  · unfold LootGroup.groupStep
    cases looting.state.group with
    | none => exact good
    | some group =>
        obtain ⟨going, ended⟩ := outcome group
        refine ⟨good.sound.step input, ?_, fun roll member => ?_⟩
        · dsimp only
          split
          · exact going
          · exact fun _ => nofun
        · rcases List.mem_append.mp member with old | new
          · exact good.ended roll old
          · exact (ended roll new).1.tallied
  · unfold LootGroup.groupStep
    cases looting.state.group with
    | none => exact unchanged.2
    | some group =>
        intro roll member
        rw [endedSince_append rfl] at member
        exact ((outcome group).2 roll member).2

/-- Starting a roll adds a fair one. -/
theorem Looting.startRoll {looting : LootGroup} (good : Looting looting) (loot : Loot)
    (settings : LootSettings) (item : LootItem) (passes : Nat → Bool) (rollVoteMask : BitVec 8)
    : Looting (looting.startRoll loot settings item passes rollVoteMask) := by
  unfold LootGroup.startRoll
  split
  · exact good
  rename_i group found
  have fair := newRoll_fair (good.sound group found) looting.itemGuidGenerator settings item passes
  refine ⟨good.sound, fun roll member => ?_, good.ended⟩
  dsimp only at member
  split at member
  · rcases List.mem_append.mp member with old | new
    · exact good.fair roll old
    · obtain rfl := List.mem_singleton.mp new
      exact ⟨⟨fair.tallied.rolling, fair.tallied.need, fair.tallied.greed, fair.tallied.pass⟩,
        fair.few, fair.valid⟩
  · exact good.fair roll member

/-- Starting the rolls of a loot, item by item. -/
theorem Looting.rollLoot {looting : LootGroup} (good : Looting looting)
    (mask : LootSettings → ItemTemplate → BitVec 8) (loot : Loot) (settings : LootSettings)
    : Looting (looting.rollLoot mask loot settings) := by
  have items (rolling : LootGroup) (good : Looting rolling) (item : LootItem)
      : Looting (rolling.rollItem mask loot settings item) := by
    unfold LootGroup.rollItem
    split
    · split
      · exact good.startRoll loot settings item _ _
      · exact good
    · exact good
  have questItems (rolling : LootGroup) (good : Looting rolling) (item : LootItem)
      : Looting (rolling.rollQuestItem loot settings item) := by
    unfold LootGroup.rollQuestItem
    split
    · exact good.startRoll loot settings item _ _
    · exact good
  have fold {start : LootGroup → LootItem → LootGroup}
      (keeps : ∀ rolling, Looting rolling → ∀ item, Looting (start rolling item))
      (rolled : List LootItem) {rolling : LootGroup} (good : Looting rolling)
      : Looting (rolled.foldl start rolling) := by
    induction rolled generalizing rolling with
    | nil => exact good
    | cons item rest ih => exact ih (keeps rolling good item)
  exact fold questItems _ (fold items _ good)

theorem Looting.endRoll {looting : LootGroup} (good : Looting looting) (loot : Nat)
    : Looting (looting.endRoll loot) := by
  refine ⟨good.sound, fun roll member => ?_, fun roll member => ?_⟩
  · exact good.fair roll (List.mem_of_mem_filter member)
  · rcases List.mem_append.mp member with old | new
    · exact good.ended roll old
    · exact (good.fair roll (List.mem_of_mem_filter new)).tallied

theorem Looting.clearReferences {looting : LootGroup} (good : Looting looting) (loot : Nat)
    : Looting (looting.clearReferences loot) := by
  refine ⟨good.sound, fun roll member => ?_, good.ended⟩
  obtain ⟨before, there, rfl⟩ := List.mem_map.mp member
  have fair := good.fair before there
  split
  · exact ⟨⟨fair.tallied.rolling, fair.tallied.need, fair.tallied.greed, fair.tallied.pass⟩,
      fair.few, fair.valid⟩
  · exact fair

-- Runs

theorem Looting.step {looting : LootGroup} (good : Looting looting) {input : LootStep}
    (once : VotesOnce looting input)
    : Looting (looting.step input) ∧ RollLaw looting input := by
  cases input with
  | group input => exact good.groupStep input
  | groupLoot loot settings => exact ⟨good.rollLoot _ loot settings, trivial⟩
  | needBeforeGreed loot settings => exact ⟨good.rollLoot _ loot settings, trivial⟩
  | lootRoll player item choice => exact good.countRollVote once
  | endRoll loot => exact ⟨good.endRoll loot, trivial⟩
  | lootGone loot => exact ⟨good.clearReferences loot, trivial⟩

theorem Looting.talliesHold {looting : LootGroup} (good : Looting looting)
    : TalliesHold looting := by
  intro roll member
  rcases List.mem_append.mp member with going | ended
  · exact (good.fair roll going).tallied
  · exact good.ended roll ended

theorem create_looting (leader : Nat) (battle lfg : Bool) (itemGuidGenerator : Nat)
    : Looting (LootGroup.create leader battle lfg itemGuidGenerator) :=
  ⟨create_sound leader battle lfg, fun _ => nofun, fun _ => nofun⟩

/-- In every run whose votes are the first ones of their players and allowed by the mask, the
tallies count the votes in every state, votes stand as they are cast, and voting ends only rolls
in which everyone has voted.
-/
theorem rolls_tallied_while_votes_once (leader : Nat) (battle lfg : Bool)
    (itemGuidGenerator : Nat) {steps : List LootStep}
    (once : EachStep LootGroup.step VotesOnce
      (LootGroup.create leader battle lfg itemGuidGenerator) steps)
    : EachState LootGroup.step TalliesHold
          (LootGroup.create leader battle lfg itemGuidGenerator) steps
      ∧ EachStep LootGroup.step RollLaw
          (LootGroup.create leader battle lfg itemGuidGenerator) steps := by
  have initial := create_looting leader battle lfg itemGuidGenerator
  constructor
  · have good := @eachState_of_invariant _ _ LootGroup.step Looting VotesOnce
      (fun _ _ good once => (good.step once).1) _ steps initial once
    exact good.imp (fun _ good => good.talliesHold)
  · exact @eachStep_of_invariant _ _ LootGroup.step Looting VotesOnce
      (fun _ _ good once => (good.step once).1) RollLaw
      (fun _ _ good once => (good.step once).2) _ steps initial once

def swordLoot : Loot where
  guid := 7
  items := [{
    freeforall := false
    followLootRules := true
    template := some {
      quality := 3
      disenchantID := 68
      requiredDisenchantSkill := 225
      needRollDisabled := false }
    allowedForPlayer := fun _ => true }]
  questItems := []

/-- Settings of a group that rolls for green items; the third player passes on everything. -/
def greenSettings : LootSettings where
  lootThreshold := 2
  maxEnchantingLevel := 300
  isAtLootRewardDistance := fun _ => true
  passOnGroupLoot := fun guid => guid == 3

/-- Three players, one of whom passes automatically; need and disenchant end the roll. -/
theorem rolls_tallied_while_votes_once_applied
    : EachState LootGroup.step TalliesHold (LootGroup.create 1 false false 100)
          [.group (.join 2), .group (.join 3), .groupLoot swordLoot greenSettings,
            .lootRoll 1 100 1, .lootRoll 2 100 3]
      ∧ EachStep LootGroup.step RollLaw (LootGroup.create 1 false false 100)
          [.group (.join 2), .group (.join 3), .groupLoot swordLoot greenSettings,
            .lootRoll 1 100 1, .lootRoll 2 100 3] := by
  refine rolls_tallied_while_votes_once 1 false false 100 ⟨?_, ?_, ?_, ?_, ?_, trivial⟩ <;>
    decide +kernel

/-- A player who needs twice is counted twice, and his two votes with one automatic pass end the
roll of three players before the second one has voted.
-/
theorem second_vote_breaks_tallies
    : ¬ ∀ leader battle lfg itemGuidGenerator steps,
        EachState LootGroup.step TalliesHold
            (LootGroup.create leader battle lfg itemGuidGenerator) steps
          ∧ EachStep LootGroup.step RollLaw
            (LootGroup.create leader battle lfg itemGuidGenerator) steps := by
  intro law
  have reached := (law 1 false false 100 [.group (.join 2), .group (.join 3),
    .groupLoot swordLoot greenSettings, .lootRoll 1 100 1, .lootRoll 1 100 1]).1.last
  have need : ∀ roll ∈ (run LootGroup.step (LootGroup.create 1 false false 100)
      [.group (.join 2), .group (.join 3), .groupLoot swordLoot greenSettings,
        .lootRoll 1 100 1, .lootRoll 1 100 1]).ended,
      roll.totalNeed = roll.playerVote.count (· = .need) :=
    fun roll member => (reached roll (List.mem_append_right _ member)).need
  revert need
  decide +kernel

end WarheadCore.Groups
