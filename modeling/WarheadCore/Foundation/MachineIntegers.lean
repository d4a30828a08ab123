import Mathlib.Algebra.Order.Ring.Int
import Mathlib.Data.List.Forall2
import Mathlib.Data.List.Induction
import Mathlib.Tactic.Ring

/-! Conversions to the fixed-width integers of the source, and loops with a signed counter of 32 bits
that run until the counter equals a bound.
A value is kept as an unbounded integer, and each conversion that the source makes, explicit
or implied by an operator, is one of the functions below.
-/

namespace Foundation

/-- Conversion to an 8-bit unsigned integer. -/
def toUInt8 (value : Int) : Nat := (value % 0x100).toNat

/-- Conversion to a 32-bit unsigned integer. -/
def toUInt32 (value : Int) : Nat := (value % 0x100000000).toNat

def toInt32 (value : Int) : Int := (value + 0x80000000) % 0x100000000 - 0x80000000

/-- A value in range is unchanged by the conversion to 8 bits. -/
theorem toUInt8_of_lt {value : Nat} (h : value < 0x100)
    : toUInt8 value = value := by
  unfold toUInt8
  omega

/-- A value in range is unchanged by the conversion to 32 unsigned bits. -/
theorem toUInt32_of_lt {value : Nat} (h : value < 0x100000000)
    : toUInt32 value = value := by
  unfold toUInt32
  omega

/-- The unsigned conversion agrees with the integer wherever that is in range. -/
theorem toUInt32_cast {value : Int} (nonneg : 0 ≤ value) (h : value < 0x100000000)
    : (toUInt32 value : Int) = value := by
  unfold toUInt32
  omega

theorem toUInt8_lt (value : Int)
    : toUInt8 value < 0x100 := by
  unfold toUInt8
  omega

/-- The unsigned conversion stays below the modulus. -/
theorem toUInt32_lt (value : Int)
    : toUInt32 value < 0x100000000 := by
  unfold toUInt32
  omega

/-- A value in range is unchanged by the conversion to 32 signed bits. -/
theorem toInt32_of_range {value : Int} (low : -0x80000000 ≤ value) (high : value < 0x80000000)
    : toInt32 value = value := by
  unfold toInt32
  omega

/-- The signed conversion lies in the signed range. -/
theorem toInt32_range (value : Int)
    : -0x80000000 ≤ toInt32 value ∧ toInt32 value < 0x80000000 := by
  unfold toInt32
  omega

/-- A signed conversion of a nonnegative value is the value or negative.
Witness: above the signed range the conversion subtracts the modulus.
-/
theorem toInt32_eq_or_neg {value : Nat} (h : value < 0x100000000)
    : toInt32 value = value ∨ toInt32 value < 0 := by
  unfold toInt32
  omega

-- Loops

variable {σ α : Type*} {stop step : Int} {body : Int → σ → Option σ}

/-- The loop for (int32 i = init; i != stop; i += step). A counter that overflows is undefined, as is
a body without a result.
-/
def forInt32 (stop step : Int) (body : Int → σ → Option σ) : Nat → Int → σ → Option σ
  | 0, _, _ => none
  | fuel + 1, i, state =>
      if i = stop then some state
      else do
        let state ← body i state
        if -0x80000000 ≤ i + step ∧ i + step < 0x80000000 then
          forInt32 stop step body fuel (i + step) state
        else none

/-- The counters of so many rounds. -/
def counters (step : Int) : Nat → Int → List Int
  | 0, _ => []
  | count + 1, i => i :: counters step count (i + step)

/-- A loop that arrives at its bound runs its body for each of the counters.
Witness: induction on the rounds; a counter between two numbers of 32 bits has 32 bits.
-/
theorem forInt32_eq_foldlM (moves : step ≠ 0) {count : Nat} {i : Int}
    (arrives : i + count * step = stop)
    (range : -0x80000000 ≤ i ∧ i < 0x80000000 ∧ -0x80000000 ≤ stop ∧ stop < 0x80000000)
    {fuel : Nat} (enough : count < fuel) (state : σ)
    : forInt32 stop step body fuel i state
      = (counters step count i).foldlM (fun state i => body i state) state := by
  induction count generalizing i fuel state with
  | zero =>
      obtain ⟨fuel, rfl⟩ := Nat.exists_eq_add_of_lt enough
      rw [Nat.zero_add, forInt32, if_pos (by omega)]
      rfl
  | succ count ih =>
      obtain ⟨fuel, rfl⟩ : ∃ more, fuel = more + 1 := ⟨fuel - 1, by omega⟩
      have next : i + step + count * step = stop := by
        rw [← arrives]
        push_cast
        ring
      have apart : i ≠ stop := by
        intro same
        have zero : ((count + 1 : Nat) : Int) * step = 0 := by omega
        rcases Int.mul_eq_zero.mp zero with none_ | still
        · omega
        · exact moves still
      have between : -0x80000000 ≤ i + step ∧ i + step < 0x80000000 := by
        rcases Int.lt_or_gt_of_ne moves with down | up
        · have rest : (count : Int) * step ≤ 0 :=
            Int.mul_nonpos_of_nonneg_of_nonpos (Int.natCast_nonneg count) down.le
          omega
        · have rest : 0 ≤ (count : Int) * step :=
            Int.mul_nonneg (Int.natCast_nonneg count) up.le
          omega
      rw [forInt32, if_neg apart, counters, List.foldlM_cons]
      cases body i state with
      | none => rfl
      | some later =>
          rw [Option.bind_eq_bind, Option.bind_some, if_pos between]
          exact ih next ⟨between.1, between.2, range.2.2⟩ (by omega) later

/-- A loop whose counter never equals its bound has no result. -/
theorem forInt32_eq_none {i : Int} (misses : ∀ count : Nat, i + count * step ≠ stop) (fuel : Nat)
    (state : σ)
    : forInt32 stop step body fuel i state = none := by
  induction fuel generalizing i state with
  | zero => rfl
  | succ fuel ih =>
      have apart : i ≠ stop := by
        have first := misses 0
        omega
      rw [forInt32, if_neg apart]
      cases body i state with
      | none => rfl
      | some later =>
          rw [Option.bind_eq_bind, Option.bind_some]
          split
          · refine ih (fun count same => misses (count + 1) ?_) later
            rw [← same]
            push_cast
            ring
          · rfl

/-- What the body preserves the loop preserves. -/
theorem forInt32_preserves {inv : σ → Prop}
    (preserved : ∀ i state later, inv state → body i state = some later → inv later)
    {fuel : Nat} {i : Int} {state last : σ} (initial : inv state)
    (done : forInt32 stop step body fuel i state = some last)
    : inv last := by
  induction fuel generalizing i state with
  | zero => exact absurd done (Option.some_ne_none _).symm
  | succ fuel ih =>
      rw [forInt32] at done
      split at done
      · exact Option.some.inj done ▸ initial
      · obtain ⟨later, first, rest⟩ := Option.bind_eq_some_iff.mp done
        split at rest
        · exact ih (preserved i state later initial first) rest
        · exact absurd rest (Option.some_ne_none _).symm

section Strides

variable {R : Int → α → Prop} {stride : Int} {whole : List α}
  (reads : ∀ front item back, whole = front ++ item :: back → R (stride * front.length) item)

include reads

/-- The counters of an upward loop read the items in order. -/
theorem forall₂_counters_up {front back : List α} (cut : whole = front ++ back)
    : List.Forall₂ R (counters stride back.length (stride * front.length)) back := by
  induction back generalizing front with
  | nil => exact .nil
  | cons item back ih =>
      have later := @ih (front ++ [item]) (by rw [cut, List.append_cons])
      rw [List.length_append, List.length_singleton, Nat.cast_add, Nat.cast_one, Int.mul_add,
        Int.mul_one] at later
      exact .cons (reads front item back cut) later

/-- The counters of a downward loop read the items in reverse. -/
theorem forall₂_counters_down {front back : List α} (cut : whole = front ++ back)
    : List.Forall₂ R (counters (-stride) front.length (stride * front.length - stride))
        front.reverse := by
  induction front using List.reverseRecOn generalizing back with
  | nil => exact .nil
  | append_singleton front item ih =>
      rw [List.append_assoc] at cut
      have later := ih cut
      rw [List.length_append, List.length_singleton, List.reverse_concat]
      have here : stride * ((front.length + 1 : Nat) : Int) - stride = stride * front.length := by
        push_cast
        ring
      rw [counters, here, ← Int.sub_eq_add_neg]
      exact .cons (reads front item back cut) later

end Strides

end Foundation
