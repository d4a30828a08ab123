import Mathlib.Data.List.Basic

/-! Words as bytes, the least significant byte first. -/

namespace Foundation.LittleEndian

variable {w : Nat}

def toBytes : Nat → BitVec w → List (BitVec 8)
  | 0, _ => []
  | count + 1, word => word.setWidth 8 :: toBytes count (word >>> 8)

def ofBytes : List (BitVec 8) → BitVec w
  | [] => 0
  | byte :: rest => byte.setWidth w ||| (ofBytes rest <<< 8)

@[simp] theorem length_toBytes (count : Nat) (word : BitVec w)
    : (toBytes count word).length = count := by
  induction count generalizing word with
  | zero => rfl
  | succ count ih => rw [toBytes, List.length_cons, ih]

/-- The bits of a word come back from its bytes.
Witness: induction on the bytes; the others are those of the shifted word.
-/
theorem getLsbD_ofBytes_toBytes (count : Nat) (word : BitVec w) (i : Nat)
    : (ofBytes (toBytes count word) : BitVec w).getLsbD i
      = (decide (i < 8 * count) && word.getLsbD i) := by
  induction count generalizing word i with
  | zero =>
      rw [toBytes, ofBytes, Nat.mul_zero, decide_eq_false (Nat.not_lt_zero i), Bool.false_and]
      exact BitVec.getLsbD_zero
  | succ count ih =>
      rw [toBytes, ofBytes, BitVec.getLsbD_or, BitVec.getLsbD_shiftLeft, ih,
        BitVec.getLsbD_setWidth, BitVec.getLsbD_setWidth, BitVec.getLsbD_ushiftRight]
      by_cases inside : i < w
      · by_cases low : i < 8
        · have early : i < 8 * (count + 1) := by omega
          simp [inside, low, early]
        · have back : 8 + (i - 8) = i := by omega
          have same : decide (i - 8 < 8 * count) = decide (i < 8 * (count + 1)) := by
            rw [decide_eq_decide]
            omega
          simp [inside, low, back, same]
      · rw [BitVec.getLsbD_of_ge word i (Nat.not_lt.mp inside)]
        simp [inside]

/-- A word comes back from all of its bytes. -/
theorem ofBytes_toBytes {count : Nat} (all : w ≤ 8 * count) (word : BitVec w)
    : ofBytes (toBytes count word) = word := by
  refine BitVec.eq_of_getLsbD_eq (fun i inside => ?_)
  have early : i < 8 * count := Nat.lt_of_lt_of_le inside all
  rw [getLsbD_ofBytes_toBytes, decide_eq_true early, Bool.true_and]

/-- The bytes of a word that are read the other way round twice are the word again. -/
theorem ofBytes_reverse_twice (word : BitVec 16)
    : ofBytes (toBytes 2 (ofBytes (toBytes 2 word).reverse : BitVec 16)).reverse = word := by
  refine BitVec.eq_of_getLsbD_eq (fun i inside => ?_)
  simp [toBytes, ofBytes, inside]
  grind

end Foundation.LittleEndian
