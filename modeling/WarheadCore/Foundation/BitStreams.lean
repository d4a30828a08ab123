import Mathlib.Algebra.Group.Nat.Defs
import Mathlib.Data.List.Basic

/-! Words as streams of bits, the most significant bit first.
A word is known by its bits, so operations on words are compared bit by bit.
-/

namespace Foundation.BitStreams

variable {w v : Nat}

def bits : Nat → BitVec w → List Bool
  | 0, _ => []
  | count + 1, word => word.getLsbD count :: bits count word

def stream (count : Nat) (words : List (BitVec w)) : List Bool :=
  words.flatMap (bits count)

-- One word

@[simp] theorem length_bits (count : Nat) (word : BitVec w)
    : (bits count word).length = count := by
  induction count with
  | zero => rfl
  | succ count ih => rw [bits, List.length_cons, ih]

/-- Words that agree on their lower bits have the same ones. -/
theorem bits_congr {count : Nat} {word : BitVec w} {other : BitVec v}
    (agree : ∀ i < count, word.getLsbD i = other.getLsbD i)
    : bits count word = bits count other := by
  induction count with
  | zero => rfl
  | succ count ih =>
      rw [bits, bits, agree count (Nat.lt_succ_self count)]
      exact congrArg _ (ih (fun i below => agree i (Nat.lt_succ_of_lt below)))

/-- The lower bits of a word that has none are zero. -/
theorem bits_eq_replicate {count : Nat} {word : BitVec w}
    (clear : ∀ i < count, word.getLsbD i = false)
    : bits count word = List.replicate count false := by
  induction count with
  | zero => rfl
  | succ count ih =>
      rw [bits, clear count (Nat.lt_succ_self count), List.replicate_succ]
      exact congrArg _ (ih (fun i below => clear i (Nat.lt_succ_of_lt below)))

/-- The upper part of the bits is that of the shifted word.
Witness: induction on the number of upper bits.
-/
theorem bits_add (upper lower : Nat) (word : BitVec w)
    : bits (upper + lower) word = bits upper (word >>> lower) ++ bits lower word := by
  induction upper with
  | zero => rw [Nat.zero_add, bits, List.nil_append]
  | succ upper ih =>
      rw [Nat.succ_add, bits, bits, ih, List.cons_append, BitVec.getLsbD_ushiftRight,
        Nat.add_comm lower upper]

/-- Every lower bit is one of them. -/
theorem mem_bits {count i : Nat} (below : i < count) (word : BitVec w)
    : word.getLsbD i ∈ bits count word := by
  induction count with
  | zero => omega
  | succ count ih =>
      rcases Nat.lt_succ_iff_lt_or_eq.mp below with lower | rfl
      · exact List.mem_cons_of_mem _ (ih lower)
      · exact List.mem_cons_self

/-- A word is known by its bits. -/
theorem eq_of_bits_eq {word other : BitVec w} (same : bits w word = bits w other)
    : word = other := by
  have agree (count : Nat) (same : bits count word = bits count other) (i : Nat)
      (below : i < count)
      : word.getLsbD i = other.getLsbD i := by
    induction count with
    | zero => omega
    | succ count ih =>
        rw [bits, bits, List.cons.injEq] at same
        rcases Nat.lt_succ_iff_lt_or_eq.mp below with lower | rfl
        · exact ih same.2 lower
        · exact same.1
  exact BitVec.eq_of_getLsbD_eq (agree w same)

def Short (count : Nat) (word : BitVec w) : Prop :=
  ∀ i, count ≤ i → word.getLsbD i = false

theorem short_iff_lt {count : Nat} {word : BitVec w}
    : Short count word ↔ word.toNat < 2 ^ count := by
  constructor
  · intro short
    exact Nat.lt_pow_two_of_testBit _ (fun i above => short i above)
  · intro small i above
    exact Nat.testBit_lt_two_pow (Nat.lt_of_lt_of_le small (Nat.pow_le_pow_right (by decide) above))

-- Streams

@[simp] theorem stream_nil (count : Nat) : stream count ([] : List (BitVec w)) = [] := rfl

@[simp] theorem stream_cons (count : Nat) (word : BitVec w) (words : List (BitVec w))
    : stream count (word :: words) = bits count word ++ stream count words := rfl

@[simp] theorem stream_append (count : Nat) (words others : List (BitVec w))
    : stream count (words ++ others) = stream count words ++ stream count others :=
  List.flatMap_append

@[simp] theorem length_stream (count : Nat) (words : List (BitVec w))
    : (stream count words).length = words.length * count := by
  induction words with
  | nil => rw [stream_nil, List.length_nil, List.length_nil, Nat.zero_mul]
  | cons word words ih =>
      rw [stream_cons, List.length_append, length_bits, ih, List.length_cons, Nat.succ_mul,
        Nat.add_comm]

/-- Streams of equally many words are the same only if the words are. -/
theorem eq_of_stream_eq {words others : List (BitVec w)} (lengths : words.length = others.length)
    (same : stream w words = stream w others)
    : words = others := by
  induction words generalizing others with
  | nil => exact (List.length_eq_zero_iff.mp lengths.symm).symm
  | cons word words ih =>
      rcases others with _ | ⟨other, others⟩
      · simp at lengths
      · rw [stream_cons, stream_cons] at same
        obtain ⟨first, rest⟩ := List.append_inj same (by rw [length_bits, length_bits])
        rw [eq_of_bits_eq first, ih (Nat.succ.inj lengths) rest]

end Foundation.BitStreams
