import Mathlib.Data.Int.Log
import Mathlib.Data.Rat.Floor
import WarheadCore.Foundation.MachineIntegers

/-! Single-precision arithmetic on exact rationals.
A float value is kept as the rational it denotes, and `roundBinary32` is the rounding that every
operation of the format applies to its exact result: to nearest, ties to even, on a grid of
24 significant bits that stops at the smallest subnormal.
-/

namespace Foundation

def roundTiesToEven (value : ℚ) : Int :=
  if value - ⌊value⌋ < 1 / 2 then ⌊value⌋
  else if value - ⌊value⌋ = 1 / 2 ∧ ⌊value⌋ % 2 = 0 then ⌊value⌋
  else ⌊value⌋ + 1

def gridExponent (value : ℚ) : Int := max (Int.log 2 |value| - 23) (-149)

def roundBinary32 (value : ℚ) : ℚ :=
  if value = 0 then 0
  else roundTiesToEven (value / 2 ^ gridExponent value) * 2 ^ gridExponent value

def truncate (value : ℚ) : Int := if 0 ≤ value then ⌊value⌋ else ⌈value⌉

/-- Conversion of a float to a 32-bit signed integer, the smallest one when out of range. -/
def floatToInt32 (value : ℚ) : Int :=
  if -0x80000000 ≤ truncate value ∧ truncate value < 0x80000000 then truncate value
  else -0x80000000

/-- Conversion of a float to a 32-bit unsigned integer, by way of a 64-bit one. -/
def floatToUInt32 (value : ℚ) : Nat :=
  if -0x8000000000000000 ≤ truncate value ∧ truncate value < 0x8000000000000000 then
    toUInt32 (truncate value)
  else 0

-- Rounding to integers

/-- The rounded integer is the floor or its successor. -/
theorem roundTiesToEven_bounds (value : ℚ)
    : ⌊value⌋ ≤ roundTiesToEven value ∧ roundTiesToEven value ≤ ⌊value⌋ + 1 := by
  unfold roundTiesToEven
  split
  · omega
  · split <;> omega

/-- Integers are unchanged. -/
theorem roundTiesToEven_intCast (value : Int)
    : roundTiesToEven value = value := by
  unfold roundTiesToEven
  rw [if_pos (by simp), Int.floor_intCast]

/-- Rounding to integers is monotone.
Witness: two values with one floor are ordered by their fractions, others by their floors.
-/
theorem roundTiesToEven_mono {lower upper : ℚ} (h : lower ≤ upper)
    : roundTiesToEven lower ≤ roundTiesToEven upper := by
  rcases (Int.floor_le_floor h).lt_or_eq with below | same
  · have low := (roundTiesToEven_bounds lower).2
    have high := (roundTiesToEven_bounds upper).1
    omega
  · unfold roundTiesToEven
    rw [same]
    have fractions : lower - (⌊upper⌋ : ℚ) ≤ upper - (⌊upper⌋ : ℚ) := by linarith
    by_cases small : upper - (⌊upper⌋ : ℚ) < 1 / 2
    · rw [if_pos small, if_pos (lt_of_le_of_lt fractions small)]
    · rw [if_neg small]
      by_cases tie : upper - (⌊upper⌋ : ℚ) = 1 / 2 ∧ ⌊upper⌋ % 2 = 0
      · rw [if_pos tie]
        by_cases less : lower - (⌊upper⌋ : ℚ) < 1 / 2
        · rw [if_pos less]
        · have equal : lower - (⌊upper⌋ : ℚ) = 1 / 2 :=
            le_antisymm (tie.1 ▸ fractions) (not_lt.mp less)
          rw [if_neg less, if_pos ⟨equal, tie.2⟩]
      · rw [if_neg tie]
        split
        · omega
        · split <;> omega

-- Rounding to the format

@[simp] theorem roundBinary32_zero : roundBinary32 0 = 0 := rfl

private theorem grid_pos (value : ℚ) : (0 : ℚ) < 2 ^ gridExponent value :=
  zpow_pos (by norm_num) _

/-- A nonnegative value stays nonnegative. -/
theorem roundBinary32_nonneg {value : ℚ} (h : 0 ≤ value)
    : 0 ≤ roundBinary32 value := by
  unfold roundBinary32
  split
  · exact le_refl 0
  · have scaled : (0 : ℚ) ≤ value / 2 ^ gridExponent value := div_nonneg h (grid_pos value).le
    have rounded := roundTiesToEven_mono scaled
    have zero := roundTiesToEven_intCast 0
    rw [Int.cast_zero] at zero
    rw [zero] at rounded
    exact mul_nonneg (by exact_mod_cast rounded) (grid_pos value).le

/-- A multiple of its own grid is unchanged. -/
theorem roundBinary32_of_grid {value : ℚ} {multiple : Int}
    (h : value = multiple * 2 ^ gridExponent value)
    : roundBinary32 value = value := by
  unfold roundBinary32
  split
  · rename_i zero
    exact zero.symm
  · have scaled : value / 2 ^ gridExponent value = multiple := by
      rw [div_eq_iff (grid_pos value).ne']
      exact h
    rw [scaled, roundTiesToEven_intCast]
    exact h.symm

/-- The grid of a positive value is at most the exponent of its leading bit less 23. -/
private theorem gridExponent_le {value : ℚ} {exponent : Int} (positive : 0 < value)
    (small : value < 2 ^ (exponent + 24)) (normal : -149 ≤ exponent)
    : gridExponent value ≤ exponent := by
  have leading := Int.zpow_log_le_self (by norm_num : 1 < 2) positive
  push_cast at leading
  have powers : (2 : ℚ) ^ Int.log 2 value < 2 ^ (exponent + 24) := lt_of_le_of_lt leading small
  have exponents := (zpow_lt_zpow_iff_right₀ (by norm_num : (1 : ℚ) < 2)).mp powers
  unfold gridExponent
  rw [abs_of_pos positive]
  omega

/-- Values of at most 24 significant bits are unchanged.
Witness: the grid of such a value divides its last bit.
-/
theorem roundBinary32_of_bits {significand : Nat} {exponent : Int}
    (bits : significand < 0x1000000) (normal : -149 ≤ exponent)
    : roundBinary32 (significand * 2 ^ exponent) = significand * 2 ^ exponent := by
  rcases Nat.eq_zero_or_pos significand with rfl | positive
  · simp
  · have significandPos : (0 : ℚ) < significand := by exact_mod_cast positive
    have valuePos : (0 : ℚ) < significand * 2 ^ exponent :=
      mul_pos significandPos (zpow_pos (by norm_num) _)
    have below : (significand : ℚ) * 2 ^ exponent < 2 ^ (exponent + 24) := by
      rw [zpow_add₀ (by norm_num), mul_comm]
      have cast : (significand : ℚ) < 0x1000000 := by exact_mod_cast bits
      have power : (2 : ℚ) ^ (24 : Int) = 0x1000000 := by norm_num
      rw [power]
      exact mul_lt_mul_of_pos_left cast (zpow_pos (by norm_num) _)
    have grid := gridExponent_le valuePos below normal
    obtain ⟨shift, shifted⟩ := Int.le.dest grid
    have multiple : (significand : ℚ) * 2 ^ exponent
        = ((significand * 2 ^ shift : Nat) : Int)
            * 2 ^ gridExponent ((significand : ℚ) * 2 ^ exponent) := by
      generalize gridExponent ((significand : ℚ) * 2 ^ exponent) = base at shifted
      rw [← shifted, zpow_add₀ (by norm_num), zpow_natCast]
      push_cast
      ring
    exact roundBinary32_of_grid multiple

/-- A rounded value stays below a power of two that bounds the exact one. -/
private theorem roundBinary32_le_pow {value : ℚ} (positive : 0 < value)
    : roundBinary32 value ≤ 2 ^ (gridExponent value + 24) := by
  have leading := Int.lt_zpow_succ_log_self (by norm_num : 1 < 2) value
  push_cast at leading
  have grid : Int.log 2 value + 1 ≤ gridExponent value + 24 := by
    unfold gridExponent
    rw [abs_of_pos positive]
    omega
  have below : value ≤ 2 ^ (gridExponent value + 24) :=
    leading.le.trans (zpow_le_zpow_right₀ (by norm_num) grid)
  have scaled : value / 2 ^ gridExponent value ≤ ((2 ^ 24 : Int) : ℚ) := by
    rw [div_le_iff₀ (grid_pos value)]
    rw [zpow_add₀ (by norm_num), mul_comm] at below
    exact_mod_cast below
  have rounded := roundTiesToEven_mono scaled
  rw [roundTiesToEven_intCast] at rounded
  unfold roundBinary32
  rw [if_neg positive.ne', zpow_add₀ (by norm_num), mul_comm]
  exact mul_le_mul_of_nonneg_left (by exact_mod_cast rounded) (grid_pos value).le

/-- A rounded value stays above a power of two on a coarser grid than the subnormal one. -/
private theorem pow_le_roundBinary32 {value : ℚ} (positive : 0 < value)
    (normal : -149 < gridExponent value)
    : 2 ^ (gridExponent value + 23) ≤ roundBinary32 value := by
  have leading := Int.zpow_log_le_self (by norm_num : 1 < 2) positive
  push_cast at leading
  have grid : gridExponent value + 23 ≤ Int.log 2 value := by
    unfold gridExponent at normal ⊢
    rw [abs_of_pos positive] at normal ⊢
    omega
  have above : 2 ^ (gridExponent value + 23) ≤ value :=
    (zpow_le_zpow_right₀ (by norm_num) grid).trans leading
  have scaled : ((2 ^ 23 : Int) : ℚ) ≤ value / 2 ^ gridExponent value := by
    rw [le_div_iff₀ (grid_pos value)]
    rw [zpow_add₀ (by norm_num), mul_comm] at above
    exact_mod_cast above
  have rounded := roundTiesToEven_mono scaled
  rw [roundTiesToEven_intCast] at rounded
  unfold roundBinary32
  rw [if_neg positive.ne', zpow_add₀ (by norm_num), mul_comm]
  exact mul_le_mul_of_nonneg_right (by exact_mod_cast rounded) (grid_pos value).le

private theorem gridExponent_mono {lower upper : ℚ} (positive : 0 < lower) (h : lower ≤ upper)
    : gridExponent lower ≤ gridExponent upper := by
  have leading : Int.log 2 lower ≤ Int.log 2 upper := Int.log_mono_right positive h
  unfold gridExponent
  rw [abs_of_pos positive, abs_of_pos (positive.trans_le h)]
  omega

/-- Rounding is monotone on nonnegative values.
Witness: on one grid it is rounding to integers; between two grids lies a power of two.
-/
theorem roundBinary32_mono {lower upper : ℚ} (nonneg : 0 ≤ lower) (h : lower ≤ upper)
    : roundBinary32 lower ≤ roundBinary32 upper := by
  rcases nonneg.eq_or_lt with rfl | positive
  · exact roundBinary32_nonneg h
  · have upperPos := positive.trans_le h
    rcases (gridExponent_mono positive h).lt_or_eq with finer | same
    · have coarse : -149 < gridExponent upper := lt_of_le_of_lt (le_max_right _ _) finer
      calc
        roundBinary32 lower ≤ 2 ^ (gridExponent lower + 24) := roundBinary32_le_pow positive
        _ ≤ 2 ^ (gridExponent upper + 23) := zpow_le_zpow_right₀ (by norm_num) (by omega)
        _ ≤ roundBinary32 upper := pow_le_roundBinary32 upperPos coarse
    · have scaled : lower / 2 ^ gridExponent lower ≤ upper / 2 ^ gridExponent upper := by
        rw [same]
        exact div_le_div_of_nonneg_right h (grid_pos upper).le
      have rounded := roundTiesToEven_mono scaled
      unfold roundBinary32
      rw [if_neg positive.ne', if_neg upperPos.ne', same] at *
      exact mul_le_mul_of_nonneg_right (by exact_mod_cast rounded) (grid_pos upper).le

/-- A value under a bound of at most 24 significant bits is rounded to one under it. -/
theorem roundBinary32_le_of_bits {value : ℚ} {significand : Nat} {exponent : Int}
    (nonneg : 0 ≤ value) (bits : significand < 0x1000000) (normal : -149 ≤ exponent)
    (h : value ≤ significand * 2 ^ exponent)
    : roundBinary32 value ≤ significand * 2 ^ exponent := by
  have rounded := roundBinary32_mono nonneg h
  rwa [roundBinary32_of_bits bits normal] at rounded

-- Conversions to integers

/-- The unsigned conversion of a value in range does not exceed an integer bound of it. -/
theorem floatToUInt32_le {value : ℚ} {bound : Nat} (nonneg : 0 ≤ value)
    (h : value ≤ bound) (range : bound < 0x100000000)
    : floatToUInt32 value ≤ bound := by
  have truncated : truncate value = ⌊value⌋ := if_pos nonneg
  have low : 0 ≤ ⌊value⌋ := Int.floor_nonneg.mpr nonneg
  have high : ⌊value⌋ ≤ bound := by exact_mod_cast (Int.floor_le value).trans h
  unfold floatToUInt32
  rw [truncated]
  have converted := toUInt32_cast low (by omega)
  split <;> omega

end Foundation
