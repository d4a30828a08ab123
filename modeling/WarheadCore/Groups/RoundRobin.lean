import WarheadCore.Foundation.Rotations
import WarheadCore.Groups.State

/-! The looter of a group: who is next when a corpse is looted in turns. -/

namespace WarheadCore.Groups

open Foundation

inductive LootMethod where
  | freeForAll | roundRobin | masterLoot | groupLoot | needBeforeGreed
deriving DecidableEq

/-- A group with its loot method and the looter whose turn it is; 0 is nobody. -/
structure LooterGroup where
  group : Group
  lootMethod : LootMethod
  looterGuid : Nat

namespace LooterGroup

/-- The position of `_getMemberCSlot`: the number of slots, if the guid has none. -/
def getMemberCSlot (looting : LooterGroup) (guid : Nat) : Nat :=
  looting.group.memberSlots.findIdx (fun slot => slot.guid == guid)

/-- A half of the search for a new looter. `isNear` tells who is in the world and at the distance
of loot rewards.
-/
def newLooter (isNear : Nat → Bool) (slots : List MemberSlot) : Option Nat :=
  (slots.find? (fun slot => isNear slot.guid)).map MemberSlot.guid

def updateLooterGuid (looting : LooterGroup) (isNear : Nat → Bool) (ifneed : Bool) : LooterGroup :=
  if looting.lootMethod = .freeForAll then looting
  else
    let slots := looting.group.memberSlots
    let position := looting.getMemberCSlot looting.looterGuid
    if position < slots.length && ifneed && isNear looting.looterGuid then looting
    else
      let guidItr := if position < slots.length then position + 1 else position
      match newLooter isNear (slots.drop guidItr) with
      | some looter => { looting with looterGuid := looter }
      | none =>
          match newLooter isNear (slots.take guidItr) with
          | some looter => { looting with looterGuid := looter }
          | none => { looting with looterGuid := 0 }

def turns (isNear : Nat → Bool) : Nat → LooterGroup → List Nat
  | 0, _ => []
  | updates + 1, looting =>
      let updated := looting.updateLooterGuid isNear false
      updated.looterGuid :: turns isNear updates updated

-- Whose turn is next

variable (looting : LooterGroup) (isNear : Nat → Bool)

def members : List Nat := looting.group.memberSlots.map MemberSlot.guid

/-- The members in the order of their turns, from behind the looter around to him. -/
def turnOrder : List Nat := rotateAfter looting.looterGuid looting.members

def keepsLooter : Bool := looting.looterGuid ∈ looting.members && isNear looting.looterGuid

theorem newLooter_eq (slots : List MemberSlot)
    : newLooter isNear slots = (slots.map MemberSlot.guid).find? isNear := by
  unfold newLooter
  rw [List.find?_map]
  rfl

theorem getMemberCSlot_eq (guid : Nat)
    : looting.getMemberCSlot guid = looting.members.idxOf guid := by
  unfold getMemberCSlot members List.idxOf
  rw [List.findIdx_map]
  rfl

/-- The two halves of the search go once around. -/
theorem turnOrder_eq
    : let position := looting.members.idxOf looting.looterGuid
      let guidItr := if position < looting.members.length then position + 1 else position
      looting.turnOrder = looting.members.drop guidItr ++ looting.members.take guidItr := by
  intro position guidItr
  unfold turnOrder rotateAfter
  by_cases member : looting.looterGuid ∈ looting.members
  · have inside : position < looting.members.length := List.idxOf_lt_length_of_mem member
    have next : guidItr = position + 1 := if_pos inside
    rw [if_pos member, next]
    exact List.rotate_eq_drop_append_take inside
  · have outside : position = looting.members.length := List.idxOf_eq_length member
    have stays : guidItr = looting.members.length := by
      unfold guidItr
      rw [outside, if_neg (lt_irrefl _)]
    rw [if_neg member, stays, List.drop_length, List.take_length, List.nil_append]

/-- An update keeps the looter if it may, and otherwise takes the first member near in the order of
turns, or nobody.
-/
theorem looterGuid_updateLooterGuid (ruled : looting.lootMethod ≠ .freeForAll) (ifneed : Bool)
    : (looting.updateLooterGuid isNear ifneed).looterGuid
      = if ifneed && looting.keepsLooter isNear then looting.looterGuid
        else (looting.turnOrder.find? isNear).getD 0 := by
  have lengths : looting.members.length = looting.group.memberSlots.length := List.length_map _
  have keeps : (decide (looting.members.idxOf looting.looterGuid < looting.group.memberSlots.length)
      && ifneed && isNear looting.looterGuid) = (ifneed && looting.keepsLooter isNear) := by
    unfold keepsLooter
    rw [← lengths, decide_eq_decide.mpr List.idxOf_lt_length_iff, Bool.and_comm (decide _) ifneed,
      Bool.and_assoc]
  have order := looting.turnOrder_eq
  dsimp only at order
  unfold updateLooterGuid
  dsimp only
  rw [if_neg ruled, getMemberCSlot_eq, keeps]
  cases ifneed && looting.keepsLooter isNear with
  | true => rfl
  | false =>
      have slots : looting.group.memberSlots.map MemberSlot.guid = looting.members := rfl
      rw [if_neg Bool.false_ne_true, if_neg Bool.false_ne_true, order, List.find?_append, lengths,
        newLooter_eq, newLooter_eq, List.map_drop, List.map_take, slots]
      generalize (looting.members.drop _).find? isNear = later
      generalize (looting.members.take _).find? isNear = earlier
      cases later with
      | some looter => rfl
      | none => cases earlier <;> rfl

/-- The group, its loot method and who is near stay as they are. -/
theorem updateLooterGuid_eq (ifneed : Bool)
    : looting.updateLooterGuid isNear ifneed
      = { looting with looterGuid := (looting.updateLooterGuid isNear ifneed).looterGuid } := by
  unfold updateLooterGuid
  split
  · rfl
  · dsimp only
    split
    · rfl
    · split
      · rfl
      · split <;> rfl

-- Turns

variable {looting isNear}

/-- Updates follow the order of the members near: they go through it and come back to its
beginning.
-/
theorem turns_eq (ruled : looting.lootMethod ≠ .freeForAll) (distinct : looting.members.Nodup)
    {first rest : List Nat} (order : looting.turnOrder.filter isNear = first ++ rest)
    : turns isNear first.length looting = first := by
  induction first generalizing looting rest with
  | nil => rfl
  | cons next others ih =>
      have found : looting.turnOrder.find? isNear = some next := by
        rw [← List.head?_filter, order]
        rfl
      have looter : (looting.updateLooterGuid isNear false).looterGuid = next := by
        rw [looterGuid_updateLooterGuid _ _ ruled, Bool.false_and, if_neg Bool.false_ne_true, found]
        rfl
      have updated : looting.updateLooterGuid isNear false
          = { looting with looterGuid := next } := by
        rw [updateLooterGuid_eq, looter]
      have orderAfter : (rotateAfter next looting.members).filter isNear
          = others ++ (rest ++ [next]) :=
        (filter_rotateAfter distinct order).trans (List.append_assoc _ _ _)
      have later :=
        @ih { looting with looterGuid := next } ruled distinct (rest ++ [next]) orderAfter
      change (looting.updateLooterGuid isNear false).looterGuid
        :: turns isNear others.length (looting.updateLooterGuid isNear false) = _
      rw [looter, updated, later]

/-- In every loot method except free for all, an update keeps the looter when it is made only if
needed and he is near, and otherwise takes the first member near cyclically after him, or nobody;
and as many updates as there are members near give each of them exactly one turn.
-/
theorem looters_take_turns (looting : LooterGroup) (isNear : Nat → Bool)
    (ruled : looting.lootMethod ≠ .freeForAll) (distinct : looting.members.Nodup)
    : (∀ ifneed, (looting.updateLooterGuid isNear ifneed).looterGuid
        = if ifneed && looting.keepsLooter isNear then looting.looterGuid
          else (looting.turnOrder.find? isNear).getD 0)
      ∧ (turns isNear (looting.members.countP isNear) looting).Perm
          (looting.members.filter isNear) := by
  refine ⟨looting.looterGuid_updateLooterGuid isNear ruled, ?_⟩
  have order : (looting.turnOrder.filter isNear).Perm (looting.members.filter isNear) :=
    (rotateAfter_perm looting.looterGuid looting.members).filter isNear
  have number : looting.members.countP isNear = (looting.turnOrder.filter isNear).length := by
    rw [List.countP_eq_length_filter, order.length_eq]
  have whole : looting.turnOrder.filter isNear = looting.turnOrder.filter isNear ++ [] :=
    (List.append_nil _).symm
  rw [number, turns_eq ruled distinct whole]
  exact order

end LooterGroup

/-- Three members with a loot method; the turn is the first one's. -/
def threeLooters (lootMethod : LootMethod) : LooterGroup where
  group :=
    { battle := false, raid := false, lfg := false, lfgRestricted := false, leaderGuid := 1
      memberSlots := [1, 2, 3].map (fun guid => { guid, group := 0 })
      subGroupsCounts := none }
  lootMethod := lootMethod
  looterGuid := 1

/-- The second of three members is away: the third one and then the first one take their turns. -/
theorem looters_take_turns_applied
    : (∀ ifneed, ((threeLooters .groupLoot).updateLooterGuid (· ≠ 2) ifneed).looterGuid
        = if ifneed && (threeLooters .groupLoot).keepsLooter (· ≠ 2) then 1
          else ((threeLooters .groupLoot).turnOrder.find? (· ≠ 2)).getD 0)
      ∧ (LooterGroup.turns (· ≠ 2) ((threeLooters .groupLoot).members.countP (· ≠ 2))
          (threeLooters .groupLoot)).Perm
          ((threeLooters .groupLoot).members.filter (· ≠ 2)) :=
  LooterGroup.looters_take_turns (threeLooters .groupLoot) (· ≠ 2) (by decide) (by decide)

/-- In a free for all the looter stays, whoever is near. -/
theorem free_for_all_takes_no_turns
    : ¬ ∀ (looting : LooterGroup) (isNear : Nat → Bool), looting.members.Nodup →
        (∀ ifneed, (looting.updateLooterGuid isNear ifneed).looterGuid
          = if ifneed && looting.keepsLooter isNear then looting.looterGuid
            else (looting.turnOrder.find? isNear).getD 0)
        ∧ (LooterGroup.turns isNear (looting.members.countP isNear) looting).Perm
            (looting.members.filter isNear) := by
  intro law
  have picks := (law (threeLooters .freeForAll) (fun _ => true) (by decide)).1 false
  revert picks
  decide

end WarheadCore.Groups
