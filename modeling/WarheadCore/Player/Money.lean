import WarheadCore.Foundation.MachineIntegers

/-! The purse of a player: the only two functions through which the game reads and changes it.
A purse is loaded clamped to the money cap, and every change keeps it below the cap.
-/

namespace WarheadCore.Player

open Foundation

def maxMoneyAmount : Nat := 0x7FFFFFFF - 1

def hasEnoughMoney (money amount : Nat) : Bool := money ≥ amount

/-- Player::ModifyMoney: whether the change was made, and the purse after it. -/
def modifyMoney (money : Nat) (amount : Int) : Bool × Nat :=
  if amount = 0 then (true, money)
  else if amount < 0 then
    (true, if money > toUInt32 (-amount) then toUInt32 (money + amount) else 0)
  else if money < toUInt32 (maxMoneyAmount - amount) then (true, toUInt32 (money + amount))
  else (false, money)

/-- Taking an amount the purse holds subtracts exactly it. -/
theorem modifyMoney_neg {money amount : Nat} (bounded : money ≤ maxMoneyAmount)
    (enough : amount ≤ money)
    : modifyMoney money (-(amount : Int)) = (true, money - amount) := by
  unfold maxMoneyAmount at bounded
  unfold modifyMoney
  by_cases zero : amount = 0
  · simp [zero]
  · have negative : (-(amount : Int)) < 0 := by omega
    rw [if_neg (by omega), if_pos negative, neg_neg, toUInt32_of_lt (by omega)]
    have wrapped : toUInt32 ((money : Int) + -(amount : Int)) = money - amount := by
      unfold toUInt32
      omega
    rw [wrapped]
    split
    · rfl
    · simp only [Prod.mk.injEq, true_and]
      omega

/-- Adding a positive amount up to the cap either stays below the cap or changes nothing. -/
theorem modifyMoney_pos {money amount : Nat} (bounded : money ≤ maxMoneyAmount)
    (positive : 0 < amount) (capped : amount ≤ maxMoneyAmount)
    : modifyMoney money amount
        = if money + amount < maxMoneyAmount then (true, money + amount) else (false, money) := by
  unfold modifyMoney
  unfold maxMoneyAmount at *
  rw [if_neg (by omega), if_neg (by omega)]
  have room : toUInt32 (((0x7FFFFFFF - 1 : Nat) : Int) - (amount : Int))
      = 0x7FFFFFFF - 1 - amount := by
    unfold toUInt32
    omega
  rw [room]
  by_cases fits : money + amount < 0x7FFFFFFF - 1
  · rw [if_pos (by omega), if_pos fits]
    have wrapped : toUInt32 ((money : Int) + (amount : Int)) = money + amount := by
      unfold toUInt32
      omega
    rw [wrapped]
  · rw [if_neg (by omega), if_neg fits]

/-- A purse within the cap stays within the cap. -/
theorem modifyMoney_le {money : Nat} {amount : Int} (bounded : money ≤ maxMoneyAmount)
    (low : -(maxMoneyAmount : Int) ≤ amount) (high : amount ≤ maxMoneyAmount)
    : (modifyMoney money amount).2 ≤ maxMoneyAmount := by
  unfold maxMoneyAmount at *
  unfold modifyMoney maxMoneyAmount
  split
  · exact bounded
  · split
    · split
      · unfold toUInt32 at *
        simp only
        omega
      · simp
    · split
      · unfold toUInt32 at *
        simp only
        omega
      · exact bounded

end WarheadCore.Player
