import Mathlib.Algebra.GCDMonoid.Nat
import Mathlib.Algebra.Order.Ring.Int
import WarheadCore.Foundation.BitStreams

/-! The encodings of bytes as characters of five or six bits each, with padding: what Decode accepts,
and that it accepts what Encode makes of any bytes. Characters are bytes; positions in a byte are kept
as the number of bits that are left in it, and both loops are followed by the bits that they have
read and written.
-/

namespace WarheadCore.Encoding

open Foundation.BitStreams

def mask (count : Nat) : BitVec 8 := BitVec.ofNat 8 (2 ^ count - 1)

/-- The parameters of GenericBaseEncoding. Encode fails where its ASSERT does. -/
structure BaseEncoding where
  bitsPerChar : Nat
  padding : BitVec 8
  decodeError : BitVec 8
  encodeChar : BitVec 8 → Option (BitVec 8)
  decodeChar : BitVec 8 → BitVec 8
  valid : 0 < bitsPerChar ∧ bitsPerChar < 8

namespace BaseEncoding

variable (encoding : BaseEncoding)

def padTo : Nat := Nat.lcm 8 encoding.bitsPerChar

def nextBitsLeft (bitsLeft : Nat) : Nat :=
  if bitsLeft > encoding.bitsPerChar then bitsLeft - encoding.bitsPerChar
  else bitsLeft + (8 - encoding.bitsPerChar)

/-- The first loop of Encode, from the current byte on: the values of thisC, and bitsLeft. -/
def chunks (byte : BitVec 8) (rest : List (BitVec 8)) (bitsLeft : Nat) : List (BitVec 8) × Nat :=
  if _ : bitsLeft ≥ encoding.bitsPerChar then
    let thisC := (byte >>> (bitsLeft - encoding.bitsPerChar)) &&& mask encoding.bitsPerChar
    if bitsLeft - encoding.bitsPerChar = 0 then
      match rest with
      | [] => ([thisC], 8)
      | next :: rest =>
          let (values, left_) := chunks next rest 8
          (thisC :: values, left_)
    else
      let (values, left_) := chunks byte rest (bitsLeft - encoding.bitsPerChar)
      (thisC :: values, left_)
  else
    let thisC := (byte &&& mask bitsLeft) <<< (encoding.bitsPerChar - bitsLeft)
    let bitsLeft := bitsLeft + (8 - encoding.bitsPerChar)
    match rest with
    | [] => ([thisC], bitsLeft)
    | next :: rest =>
        let (values, left_) := chunks next rest bitsLeft
        ((thisC ||| (next >>> bitsLeft)) :: values, left_)
termination_by (rest.length, bitsLeft)
decreasing_by
  · exact Prod.Lex.left _ _ (Nat.lt_succ_self _)
  · have enough := ‹bitsLeft ≥ encoding.bitsPerChar›
    exact Prod.Lex.right _ (Nat.sub_lt (encoding.valid.1.trans_le enough) encoding.valid.1)
  · exact Prod.Lex.left _ _ (Nat.lt_succ_self _)

/-- The loop of Encode that pads, for at most so many rounds. -/
def pad : (rounds : Nat) → (bitsLeft : Nat) → Option (List (BitVec 8))
  | rounds, bitsLeft =>
      if bitsLeft = 8 then some []
      else
        match rounds with
        | 0 => none
        | rounds + 1 =>
            (pad rounds (encoding.nextBitsLeft bitsLeft)).map (encoding.padding :: ·)

/-- The padding takes at most eight rounds, as there are no more positions in a byte. -/
def encode : List (BitVec 8) → Option (List (BitVec 8))
  | [] => some []
  | byte :: rest => do
      let (values, bitsLeft) := encoding.chunks byte rest 8
      let characters ← values.mapM encoding.encodeChar
      let padding ← encoding.pad 8 bitsLeft
      some (characters ++ padding)

structure DecodeState where
  currentByte : BitVec 8 := 0
  bitsLeft : Nat := 8
  v : List (BitVec 8) := []

def decodeStep (state : DecodeState) (cur : BitVec 8) : DecodeState :=
  if state.bitsLeft > encoding.bitsPerChar then
    let bitsLeft := state.bitsLeft - encoding.bitsPerChar
    { state with
      bitsLeft := bitsLeft
      currentByte := state.currentByte ||| (cur <<< bitsLeft) }
  else
    let bitsLeft := encoding.bitsPerChar - state.bitsLeft
    { v := state.v ++ [state.currentByte ||| (cur >>> bitsLeft)]
      currentByte := (cur &&& mask bitsLeft) <<< (8 - bitsLeft)
      bitsLeft := 8 - bitsLeft }

def decodeLoop : List (BitVec 8) → DecodeState → Option (DecodeState × List (BitVec 8))
  | [], state => some (state, [])
  | character :: rest, state =>
      if character ≠ encoding.padding then
        let cur := encoding.decodeChar character
        if cur = encoding.decodeError then none
        else decodeLoop rest (encoding.decodeStep state cur)
      else some (state, character :: rest)

def skipPadding : List (BitVec 8) → (bitsLeft : Nat) → List (BitVec 8)
  | [], _ => []
  | character :: rest, bitsLeft =>
      if character = encoding.padding ∧ bitsLeft ≠ 8 then
        skipPadding rest (encoding.nextBitsLeft bitsLeft)
      else character :: rest

def decode (data : List (BitVec 8)) : Option (List (BitVec 8)) :=
  if data = [] then some []
  else
    match encoding.decodeLoop data {} with
    | none => none
    | some (state, rest) =>
        if state.currentByte ≠ 0 then none
        else if encoding.skipPadding rest state.bitsLeft = [] then some state.v
        else none

end BaseEncoding

def byte (character : Char) : BitVec 8 := BitVec.ofNat 8 character.toNat

namespace B32Impl

def encode (v : BitVec 8) : Option (BitVec 8) :=
  if v < 0x20 then
    if v < 26 then some (byte 'A' + v) else some (byte '2' + (v - 26))
  else none

def decodeOwn (v : BitVec 8) : BitVec 8 :=
  if byte 'A' ≤ v ∧ v ≤ byte 'Z' then v - byte 'A'
  else if byte 'a' ≤ v ∧ v ≤ byte 'z' then v - byte 'a'
  else if byte '2' ≤ v ∧ v ≤ byte '7' then v - byte '2' + 26
  else 0xff

def decode (v : BitVec 8) : BitVec 8 :=
  if v = byte '0' then decodeOwn (byte 'O')
  else if v = byte '1' then decodeOwn (byte 'l')
  else if v = byte '8' then decodeOwn (byte 'B')
  else decodeOwn v

end B32Impl

namespace B64Impl

def encode (v : BitVec 8) : Option (BitVec 8) :=
  if v < 0x40 then
    if v < 26 then some (byte 'A' + v)
    else if v < 52 then some (byte 'a' + (v - 26))
    else if v < 62 then some (byte '0' + (v - 52))
    else if v = 62 then some (byte '+')
    else some (byte '/')
  else none

def decode (v : BitVec 8) : BitVec 8 :=
  if byte 'A' ≤ v ∧ v ≤ byte 'Z' then v - byte 'A'
  else if byte 'a' ≤ v ∧ v ≤ byte 'z' then v - byte 'a' + 26
  else if byte '0' ≤ v ∧ v ≤ byte '9' then v - byte '0' + 52
  else if v = byte '+' then 62
  else if v = byte '/' then 63
  else 0xff

end B64Impl

def base32 : BaseEncoding where
  bitsPerChar := 5
  padding := byte '='
  decodeError := 0xff
  encodeChar := B32Impl.encode
  decodeChar := B32Impl.decode
  valid := by decide

def base64 : BaseEncoding where
  bitsPerChar := 6
  padding := byte '='
  decodeError := 0xff
  encodeChar := B64Impl.encode
  decodeChar := B64Impl.decode
  valid := by decide

-- Bits of bytes

theorem getLsbD_mask {count i : Nat} (inside : i < 8)
    : (mask count).getLsbD i = decide (i < count) := by
  unfold mask
  rw [BitVec.getLsbD_ofNat, Nat.testBit_two_pow_sub_one]
  simp [inside]

/-- A masked byte keeps the lower bits. -/
theorem bits_mask {count : Nat} (few : count ≤ 8) (word : BitVec 8)
    : bits count (word &&& mask count) = bits count word := by
  refine bits_congr (fun i below => ?_)
  rw [BitVec.getLsbD_and, getLsbD_mask (by omega), decide_eq_true below, Bool.and_true]

/-- Lower bits that are shifted up stand in front, where the byte holds them. -/
theorem bits_shift {upper lower : Nat} (few : upper + lower ≤ 8) (word : BitVec 8)
    : bits (upper + lower) (word <<< lower) = bits upper word ++ List.replicate lower false := by
  rw [bits_add]
  refine congrArg₂ _ (bits_congr (fun i below => ?_)) (bits_eq_replicate (fun i below => ?_))
  · rw [BitVec.getLsbD_ushiftRight, BitVec.getLsbD_shiftLeft]
    have inside : lower + i < 8 := by omega
    simp [inside]
  · rw [BitVec.getLsbD_shiftLeft]
    simp [below]

/-- The lower part of a byte is filled where it is clear. -/
theorem bits_or {upper lower : Nat} {word filling : BitVec 8}
    (clear : ∀ i < lower, word.getLsbD i = false) (short : Short lower filling)
    : bits (upper + lower) (word ||| filling) = bits upper (word >>> lower) ++ bits lower filling := by
  rw [bits_add]
  refine congrArg₂ _ (bits_congr (fun i below => ?_)) (bits_congr (fun i below => ?_))
  · rw [BitVec.getLsbD_ushiftRight, BitVec.getLsbD_ushiftRight, BitVec.getLsbD_or,
      short (lower + i) (Nat.le_add_right _ _), Bool.or_false]
  · rw [BitVec.getLsbD_or, clear i below, Bool.false_or]

namespace BaseEncoding

variable {encoding : BaseEncoding}

-- Decode

/-- The state of Decode after some characters: their bits are those of the bytes that are written,
and of the upper part of the current one.
-/
structure Follows (encoding : BaseEncoding) (values : List (BitVec 8)) (state : DecodeState)
    : Prop where
  positive : 0 < state.bitsLeft
  inside : state.bitsLeft ≤ 8
  position : state.bitsLeft = encoding.nextBitsLeft^[values.length] 8
  clear : ∀ i < state.bitsLeft, state.currentByte.getLsbD i = false
  read
    : stream encoding.bitsPerChar values
      = stream 8 state.v ++ bits (8 - state.bitsLeft) (state.currentByte >>> state.bitsLeft)

theorem follows_nil : Follows encoding [] {} where
  positive := by decide
  inside := le_rfl
  position := rfl
  clear i _ := BitVec.getLsbD_zero
  read := rfl

/-- One character more.
Witness: it fits into the current byte, or it fills it and its rest starts the next one.
-/
theorem Follows.step {values : List (BitVec 8)} {state : DecodeState}
    (good : Follows encoding values state) {cur : BitVec 8}
    (short : Short encoding.bitsPerChar cur)
    : Follows encoding (values ++ [cur]) (encoding.decodeStep state cur) := by
  obtain ⟨positive, inside, position, clear, read⟩ := good
  obtain ⟨some_, few⟩ := encoding.valid
  have next : encoding.nextBitsLeft^[(values ++ [cur]).length] 8
      = encoding.nextBitsLeft state.bitsLeft := by
    rw [List.length_append, List.length_singleton, Function.iterate_succ_apply', position]
  have last : stream encoding.bitsPerChar (values ++ [cur])
      = stream 8 state.v ++ (bits (8 - state.bitsLeft) (state.currentByte >>> state.bitsLeft)
        ++ bits encoding.bitsPerChar cur) := by
    rw [stream_append, read, stream_cons, stream_nil, List.append_nil, List.append_assoc]
  unfold decodeStep
  split
  · rename_i room
    have shift : state.bitsLeft - encoding.bitsPerChar + encoding.bitsPerChar = state.bitsLeft := by
      omega
    have split_ : 8 - (state.bitsLeft - encoding.bitsPerChar)
        = 8 - state.bitsLeft + encoding.bitsPerChar := by
      omega
    refine ⟨by dsimp only; omega, by dsimp only; omega, ?_, ?_, ?_⟩
    · rw [next, nextBitsLeft, if_pos room]
    · intro i below
      dsimp only at below ⊢
      rw [BitVec.getLsbD_or, clear i (by omega), BitVec.getLsbD_shiftLeft]
      simp [below]
    · dsimp only
      rw [last, split_, bits_add]
      refine congrArg _ (congrArg₂ _ (bits_congr (fun i below => ?_))
        (bits_congr (fun i below => ?_)))
      · rw [BitVec.getLsbD_ushiftRight, BitVec.getLsbD_ushiftRight, BitVec.getLsbD_ushiftRight,
          BitVec.getLsbD_or, BitVec.getLsbD_shiftLeft, ← Nat.add_assoc, shift,
          short _ (by omega), Bool.and_false, Bool.or_false]
      · rw [BitVec.getLsbD_ushiftRight, BitVec.getLsbD_or, clear _ (by omega), Bool.false_or,
          BitVec.getLsbD_shiftLeft, Nat.add_sub_cancel_left]
        have high : state.bitsLeft - encoding.bitsPerChar + i < 8 := by omega
        simp [high]
  · rename_i full
    generalize kept : encoding.bitsPerChar - state.bitsLeft = rest
    have whole : encoding.bitsPerChar = state.bitsLeft + rest := by omega
    refine ⟨by dsimp only; omega, by dsimp only; omega, ?_, ?_, ?_⟩
    · dsimp only
      rw [next, nextBitsLeft, if_neg full]
      omega
    · intro i below
      dsimp only at below ⊢
      rw [BitVec.getLsbD_shiftLeft]
      simp [below]
    · dsimp only
      have own : 8 - (8 - rest) = rest := by omega
      have byte_ : bits 8 (state.currentByte ||| cur >>> rest)
          = bits (8 - state.bitsLeft) (state.currentByte >>> state.bitsLeft)
            ++ bits state.bitsLeft (cur >>> rest) := by
        have rest_ : Short state.bitsLeft (cur >>> rest) := by
          intro i above
          rw [BitVec.getLsbD_ushiftRight]
          exact short _ (by omega)
        rw [← bits_or clear rest_, Nat.sub_add_cancel inside]
      have tail : bits rest ((cur &&& mask rest) <<< (8 - rest) >>> (8 - rest)) = bits rest cur := by
        refine bits_congr (fun i below => ?_)
        have high : 8 - rest + i < 8 := by omega
        rw [BitVec.getLsbD_ushiftRight, BitVec.getLsbD_shiftLeft, Nat.add_sub_cancel_left,
          BitVec.getLsbD_and, getLsbD_mask (by omega)]
        simp [high, below]
      rw [last, own, tail, stream_append, stream_cons, stream_nil, List.append_nil, byte_, whole,
        bits_add, List.append_assoc, List.append_assoc]

def InAlphabet (encoding : BaseEncoding) (character : BitVec 8) : Prop :=
  encoding.decodeChar character ≠ encoding.decodeError

instance (character : BitVec 8) : Decidable (encoding.InAlphabet character) :=
  inferInstanceAs (Decidable (_ ≠ _))

structure Lawful (encoding : BaseEncoding) : Prop where
  padding : ¬ encoding.InAlphabet encoding.padding
  decoded
    : ∀ character, encoding.InAlphabet character →
        (encoding.decodeChar character).toNat < 2 ^ encoding.bitsPerChar
  encoded
    : ∀ value : BitVec 8, value.toNat < 2 ^ encoding.bitsPerChar →
        ∃ character, encoding.encodeChar value = some character
          ∧ encoding.InAlphabet character ∧ encoding.decodeChar character = value

/-- The loop of Decode reads the characters of the alphabet up to the first padding. -/
theorem decodeLoop_eq_some (lawful : Lawful encoding) {data rest : List (BitVec 8)}
    {state final : DecodeState} {values : List (BitVec 8)} (good : Follows encoding values state)
    (read : encoding.decodeLoop data state = some (final, rest))
    : ∃ characters, data = characters ++ rest
        ∧ (∀ character ∈ characters, encoding.InAlphabet character)
        ∧ Follows encoding (values ++ characters.map encoding.decodeChar) final := by
  induction data generalizing state values with
  | nil =>
      obtain ⟨rfl, rfl⟩ := Prod.mk.inj (Option.some.inj read)
      exact ⟨[], rfl, by simp, by simpa using good⟩
  | cons character data ih =>
      unfold decodeLoop at read
      split at read
      · dsimp only at read
        split at read
        · cases read
        · rename_i inside
          have short : Short encoding.bitsPerChar (encoding.decodeChar character) :=
            short_iff_lt.mpr (lawful.decoded character inside)
          obtain ⟨characters, rfl, all, follows⟩ := ih (good.step short) read
          refine ⟨character :: characters, rfl, ?_, by simpa using follows⟩
          intro other member
          rcases List.mem_cons.mp member with rfl | behind
          · exact inside
          · exact all other behind
      · obtain ⟨rfl, rfl⟩ := Prod.mk.inj (Option.some.inj read)
        exact ⟨[], rfl, by simp, by simpa using good⟩

/-- The loop of Decode gets through characters of the alphabet. -/
theorem decodeLoop_alphabet (lawful : Lawful encoding) {characters rest : List (BitVec 8)}
    (all : ∀ character ∈ characters, encoding.InAlphabet character)
    (stop : ∀ character ∈ rest.head?, character = encoding.padding)
    {state : DecodeState} {values : List (BitVec 8)} (good : Follows encoding values state)
    : ∃ final, encoding.decodeLoop (characters ++ rest) state = some (final, rest)
        ∧ Follows encoding (values ++ characters.map encoding.decodeChar) final := by
  induction characters generalizing state values with
  | nil =>
      refine ⟨state, ?_, by simpa using good⟩
      cases rest with
      | nil => rfl
      | cons character rest =>
          have same := stop character rfl
          rw [List.nil_append, decodeLoop, if_neg (not_not.mpr same)]
  | cons character characters ih =>
      have inside := all character List.mem_cons_self
      have other : character ≠ encoding.padding := by
        rintro rfl
        exact lawful.padding inside
      have short : Short encoding.bitsPerChar (encoding.decodeChar character) :=
        short_iff_lt.mpr (lawful.decoded character inside)
      obtain ⟨final, read, follows⟩ :=
        ih (fun other member => all other (List.mem_cons_of_mem _ member)) (good.step short)
      refine ⟨final, ?_, by simpa using follows⟩
      rw [List.cons_append, decodeLoop, if_pos other]
      dsimp only
      rw [if_neg inside]
      exact read

-- Padding

def blockSize (encoding : BaseEncoding) : Nat := encoding.padTo / encoding.bitsPerChar

/-- The padding that so many characters call for, up to a whole block. -/
def paddingSize (encoding : BaseEncoding) (characters : Nat) : Nat :=
  (encoding.blockSize - characters % encoding.blockSize) % encoding.blockSize

/-- The position in a byte is that of the bits that were read. -/
theorem position_eq (encoding : BaseEncoding) (count : Nat)
    : encoding.nextBitsLeft^[count] 8 = 8 - count * encoding.bitsPerChar % 8 := by
  obtain ⟨some_, few⟩ := encoding.valid
  induction count with
  | zero => rw [Function.iterate_zero_apply, Nat.zero_mul]
  | succ count ih =>
      rw [Function.iterate_succ_apply', ih, Nat.succ_mul]
      unfold nextBitsLeft
      split <;> omega

theorem dvd_bits_iff (encoding : BaseEncoding) (count : Nat)
    : 8 ∣ count * encoding.bitsPerChar ↔ encoding.blockSize ∣ count := by
  have positive := encoding.valid.1
  have block : encoding.blockSize * encoding.bitsPerChar = encoding.padTo :=
    Nat.div_mul_cancel (Nat.dvd_lcm_right 8 encoding.bitsPerChar)
  have scaled : encoding.blockSize ∣ count ↔ encoding.padTo ∣ count * encoding.bitsPerChar := by
    rw [← block, Nat.mul_dvd_mul_iff_right positive]
  rw [scaled]
  unfold padTo
  constructor
  · intro whole
    exact Nat.lcm_dvd whole (Nat.dvd_mul_left _ _)
  · exact fun whole => (Nat.dvd_lcm_left 8 encoding.bitsPerChar).trans whole

theorem blockSize_bounds (encoding : BaseEncoding)
    : 0 < encoding.blockSize ∧ encoding.blockSize ≤ 8 := by
  have whole := (encoding.dvd_bits_iff 8).mp (Nat.dvd_mul_right 8 encoding.bitsPerChar)
  exact ⟨Nat.pos_of_dvd_of_pos whole (by decide), Nat.le_of_dvd (by decide) whole⟩

theorem position_eq_eight_iff (encoding : BaseEncoding) (count : Nat)
    : encoding.nextBitsLeft^[count] 8 = 8 ↔ count % encoding.blockSize = 0 := by
  rw [position_eq, ← Nat.dvd_iff_mod_eq_zero, ← dvd_bits_iff, Nat.dvd_iff_mod_eq_zero]
  omega

/-- At the end of a block no padding is called for. -/
theorem paddingSize_of_end {count : Nat} (whole : encoding.nextBitsLeft^[count] 8 = 8)
    : encoding.paddingSize count = 0 := by
  unfold paddingSize
  rw [(position_eq_eight_iff encoding count).mp whole, Nat.sub_zero, Nat.mod_self]

/-- Inside of a block one character more calls for one padding less. -/
theorem paddingSize_succ {count : Nat} (inside : encoding.nextBitsLeft^[count] 8 ≠ 8)
    : encoding.paddingSize count = encoding.paddingSize (count + 1) + 1 := by
  have some_ : count % encoding.blockSize ≠ 0 := mt (position_eq_eight_iff encoding count).mpr inside
  have below := Nat.mod_lt count encoding.blockSize_bounds.1
  unfold paddingSize
  rw [← Nat.mod_add_mod count encoding.blockSize 1]
  generalize count % encoding.blockSize = place at some_ below
  generalize encoding.blockSize = size at below
  rw [Nat.mod_eq_of_lt (by omega : size - place < size)]
  by_cases last : place + 1 = size
  · rw [last, Nat.mod_self, Nat.sub_zero, Nat.mod_self]
    omega
  · rw [Nat.mod_eq_of_lt (by omega : place + 1 < size),
      Nat.mod_eq_of_lt (by omega : size - (place + 1) < size)]
    omega

theorem paddingSize_le (encoding : BaseEncoding) (count : Nat)
    : encoding.paddingSize count ≤ 8 :=
  (Nat.mod_lt _ encoding.blockSize_bounds.1).le.trans encoding.blockSize_bounds.2

/-- Encode pads up to the end of the block. -/
theorem pad_eq (encoding : BaseEncoding) {rounds count : Nat}
    (enough : encoding.paddingSize count ≤ rounds)
    : encoding.pad rounds (encoding.nextBitsLeft^[count] 8)
      = some (List.replicate (encoding.paddingSize count) encoding.padding) := by
  induction rounds generalizing count with
  | zero =>
      have whole : encoding.nextBitsLeft^[count] 8 = 8 := by
        by_contra inside
        rw [paddingSize_succ inside] at enough
        exact absurd enough (Nat.not_succ_le_zero _)
      rw [pad, if_pos whole, paddingSize_of_end whole, List.replicate_zero]
  | succ rounds ih =>
      unfold pad
      split
      · rename_i whole
        rw [paddingSize_of_end whole, List.replicate_zero]
      · rename_i inside
        rw [paddingSize_succ inside] at enough ⊢
        have next := ih (Nat.le_of_succ_le_succ enough)
        rw [Function.iterate_succ_apply'] at next
        dsimp only
        rw [next, Option.map_some, List.replicate_succ]

/-- Decode takes padding up to the end of the block, and nothing else. -/
theorem skipPadding_eq_nil_iff (encoding : BaseEncoding) (rest : List (BitVec 8)) (count : Nat)
    : encoding.skipPadding rest (encoding.nextBitsLeft^[count] 8) = []
      ↔ ∃ pads ≤ encoding.paddingSize count, rest = List.replicate pads encoding.padding := by
  induction rest generalizing count with
  | nil => exact iff_of_true rfl ⟨0, Nat.zero_le _, rfl⟩
  | cons character rest ih =>
      unfold skipPadding
      split
      · rename_i padding
        obtain ⟨rfl, inside⟩ := padding
        have next := ih (count + 1)
        rw [Function.iterate_succ_apply'] at next
        rw [next, paddingSize_succ inside]
        constructor
        · rintro ⟨pads, few, rfl⟩
          exact ⟨pads + 1, Nat.succ_le_succ few, rfl⟩
        · rintro ⟨pads, few, same⟩
          cases pads with
          | zero => cases same
          | succ pads => exact ⟨pads, Nat.le_of_succ_le_succ few, (List.cons.inj same).2⟩
      · rename_i other
        refine iff_of_false (List.cons_ne_nil _ _) ?_
        rintro ⟨pads, few, same⟩
        cases pads with
        | zero => cases same
        | succ pads =>
            refine other ⟨(List.cons.inj same).1, fun whole => ?_⟩
            rw [paddingSize_of_end whole] at few
            exact absurd few (Nat.not_succ_le_zero _)

-- The language of Decode

/-- A string spells bytes: it consists of characters of the alphabet and then of no more padding
than they call for, and the whole bytes among their bits are these, with zeros behind them.
-/
structure Spells (encoding : BaseEncoding) (data characters : List (BitVec 8)) (pads : Nat)
    (bytes : List (BitVec 8))
    : Prop where
  spelled : data = characters ++ List.replicate pads encoding.padding
  alphabet : ∀ character ∈ characters, encoding.InAlphabet character
  few : pads ≤ encoding.paddingSize characters.length
  whole
    : stream 8 bytes
      = (stream encoding.bitsPerChar (characters.map encoding.decodeChar)).take
          (8 * (characters.length * encoding.bitsPerChar / 8))
  zero
    : ∀ bit ∈ (stream encoding.bitsPerChar (characters.map encoding.decodeChar)).drop
          (8 * (characters.length * encoding.bitsPerChar / 8)),
        bit = false

/-- Bytes with fewer than eight bits behind them are the whole bytes. -/
theorem whole_bytes {read tail : List Bool} {bytes : List (BitVec 8)}
    (same : read = stream 8 bytes ++ tail) (few : tail.length < 8)
    : read.take (8 * (read.length / 8)) = stream 8 bytes
      ∧ read.drop (8 * (read.length / 8)) = tail := by
  have length : (stream 8 bytes).length = 8 * (read.length / 8) := by
    rw [same, List.length_append, length_stream]
    omega
  rw [← length, same]
  exact ⟨List.take_left, List.drop_left⟩

/-- An empty string is no case of its own. -/
theorem decode_eq (encoding : BaseEncoding) (data : List (BitVec 8))
    : encoding.decode data
      = match encoding.decodeLoop data {} with
        | none => none
        | some (state, rest) =>
            if state.currentByte ≠ 0 then none
            else if encoding.skipPadding rest state.bitsLeft = [] then some state.v
            else none := by
  unfold decode
  split
  · rename_i empty
    subst empty
    rfl
  · rfl

/-- What was read are the bytes that were written, and what is left of them. -/
theorem Follows.whole {characters : List (BitVec 8)} {state : DecodeState}
    (follows : Follows encoding (characters.map encoding.decodeChar) state)
    : (stream encoding.bitsPerChar (characters.map encoding.decodeChar)).take
          (8 * (characters.length * encoding.bitsPerChar / 8))
        = stream 8 state.v
      ∧ (stream encoding.bitsPerChar (characters.map encoding.decodeChar)).drop
          (8 * (characters.length * encoding.bitsPerChar / 8))
        = bits (8 - state.bitsLeft) (state.currentByte >>> state.bitsLeft) := by
  have few : (bits (8 - state.bitsLeft) (state.currentByte >>> state.bitsLeft)).length < 8 := by
    rw [length_bits]
    exact Nat.sub_lt (by decide) follows.positive
  have cut := whole_bytes follows.read few
  rwa [length_stream, List.length_map] at cut

/-- Decode accepts what spells bytes, and nothing else.
Witness: the loop stops at the first padding, and what is left in the current byte has to be zero.
-/
theorem decode_eq_some_iff (lawful : Lawful encoding) (data bytes : List (BitVec 8))
    : encoding.decode data = some bytes ↔ ∃ characters pads, Spells encoding data characters pads bytes := by
  rw [decode_eq]
  constructor
  · intro decoded
    cases read : encoding.decodeLoop data {} with
    | none =>
        rw [read] at decoded
        cases decoded
    | some found =>
        obtain ⟨state, rest⟩ := found
        rw [read] at decoded
        obtain ⟨characters, rfl, all, follows⟩ := decodeLoop_eq_some lawful follows_nil read
        rw [List.nil_append] at follows
        dsimp only at decoded
        split at decoded
        · cases decoded
        · rename_i zero
          have zero : state.currentByte = 0 := not_not.mp zero
          split at decoded
          · rename_i taken
            obtain rfl := Option.some.inj decoded
            rw [follows.position, List.length_map] at taken
            obtain ⟨pads, few, rfl⟩ :=
              (skipPadding_eq_nil_iff encoding rest characters.length).mp taken
            refine ⟨characters, pads, rfl, all, few, follows.whole.1.symm, ?_⟩
            rw [follows.whole.2, bits_eq_replicate (by simp [zero])]
            exact fun bit member => List.eq_of_mem_replicate member
          · cases decoded
  · rintro ⟨characters, pads, rfl, all, few, whole, zero⟩
    have stop : ∀ character ∈ (List.replicate pads encoding.padding).head?,
        character = encoding.padding := by
      intro character first
      exact List.eq_of_mem_replicate (List.mem_of_mem_head? first)
    obtain ⟨state, read, follows⟩ := decodeLoop_alphabet lawful all stop follows_nil
    rw [List.nil_append] at follows
    have clear : state.currentByte = 0 := by
      refine BitVec.eq_of_getLsbD_eq (fun i inside => ?_)
      refine Eq.trans ?_ BitVec.getLsbD_zero.symm
      by_cases below : i < state.bitsLeft
      · exact follows.clear i below
      · have member := mem_bits (by omega : i - state.bitsLeft < 8 - state.bitsLeft)
          (state.currentByte >>> state.bitsLeft)
        rw [← follows.whole.2] at member
        have bit := zero _ member
        rwa [BitVec.getLsbD_ushiftRight, Nat.add_sub_cancel' (Nat.not_lt.mp below)] at bit
    have same : stream 8 state.v = stream 8 bytes := by
      rw [whole, follows.whole.1]
    have lengths : state.v.length = bytes.length := by
      have length := congrArg List.length same
      rw [length_stream, length_stream] at length
      exact Nat.eq_of_mul_eq_mul_right (by decide) length
    have taken := (skipPadding_eq_nil_iff encoding (List.replicate pads encoding.padding)
      characters.length).mpr ⟨pads, few, rfl⟩
    rw [← List.length_map (f := encoding.decodeChar), ← follows.position] at taken
    rw [read]
    dsimp only
    rw [if_neg (not_not.mpr clear), if_pos taken, eq_of_stream_eq lengths same]

-- Encode

/-- What the first loop of Encode comes to: the bits of its values are those of the bytes that it
reads, with fewer zeros behind them than a character has bits.
-/
structure Chunked (encoding : BaseEncoding) (read : List Bool) (bitsLeft : Nat)
    (result : List (BitVec 8) × Nat)
    : Prop where
  bits_ : ∃ surplus < encoding.bitsPerChar,
    stream encoding.bitsPerChar result.1 = read ++ List.replicate surplus false
  short : ∀ value ∈ result.1, Short encoding.bitsPerChar value
  position : result.2 = encoding.nextBitsLeft^[result.1.length] bitsLeft

/-- One value in front of what the rest of the loop comes to. -/
theorem Chunked.cons {whole read : List Bool} {bitsLeft next left_ : Nat} {thisC : BitVec 8}
    {values : List (BitVec 8)} (short : Short encoding.bitsPerChar thisC)
    (moved : next = encoding.nextBitsLeft bitsLeft)
    (same : bits encoding.bitsPerChar thisC ++ read = whole)
    (rest : Chunked encoding read next (values, left_))
    : Chunked encoding whole bitsLeft (thisC :: values, left_) := by
  obtain ⟨⟨surplus, few, tail⟩, all, position⟩ := rest
  refine ⟨⟨surplus, few, ?_⟩, ?_, ?_⟩
  · rw [stream_cons, tail, ← same, List.append_assoc]
  · intro value member
    rcases List.mem_cons.mp member with rfl | behind
    · exact short
    · exact all value behind
  · rw [position, moved]
    rfl

/-- The last value, with zeros behind the bits that are read. -/
theorem Chunked.last {read : List Bool} {bitsLeft surplus left_ : Nat} {thisC : BitVec 8}
    (short : Short encoding.bitsPerChar thisC) (moved : left_ = encoding.nextBitsLeft bitsLeft)
    (few : surplus < encoding.bitsPerChar)
    (same : bits encoding.bitsPerChar thisC = read ++ List.replicate surplus false)
    : Chunked encoding read bitsLeft ([thisC], left_) := by
  refine ⟨⟨surplus, few, ?_⟩, ?_, moved⟩
  · rw [stream_cons, stream_nil, List.append_nil, same]
  · intro value member
    rw [List.mem_singleton.mp member]
    exact short

theorem short_mask {count : Nat} (word : BitVec 8) : Short count (word &&& mask count) := by
  intro i above
  by_cases inside : i < 8
  · rw [BitVec.getLsbD_and, getLsbD_mask inside, decide_eq_false (Nat.not_lt.mpr above),
      Bool.and_false]
  · exact BitVec.getLsbD_of_ge _ _ (Nat.not_lt.mp inside)

/-- A value that is taken from one byte, and the bits of that byte that are left. -/
theorem bits_within (byte : BitVec 8) {count bitsLeft : Nat} (few : count ≤ 8)
    (enough : count ≤ bitsLeft)
    : bits count ((byte >>> (bitsLeft - count)) &&& mask count) ++ bits (bitsLeft - count) byte
      = bits bitsLeft byte := by
  rw [bits_mask few, ← bits_add, Nat.add_sub_cancel' enough]

def lastBits (count bitsLeft : Nat) (byte : BitVec 8) : BitVec 8 :=
  (byte &&& mask bitsLeft) <<< (count - bitsLeft)

theorem short_lastBits (byte : BitVec 8) {count bitsLeft : Nat} (less : bitsLeft < count)
    : Short count (lastBits count bitsLeft byte) := by
  intro i above
  unfold lastBits
  rw [BitVec.getLsbD_shiftLeft, short_mask byte (i - (count - bitsLeft)) (by omega), Bool.and_false]

theorem bits_lastBits (byte : BitVec 8) {count bitsLeft : Nat} (few : count ≤ 8)
    (less : bitsLeft < count)
    : bits count (lastBits count bitsLeft byte)
      = bits bitsLeft byte ++ List.replicate (count - bitsLeft) false := by
  have whole : bitsLeft + (count - bitsLeft) = count := by omega
  have shifted := bits_shift (by omega : bitsLeft + (count - bitsLeft) ≤ 8) (byte &&& mask bitsLeft)
  rwa [whole, bits_mask (by omega)] at shifted

/-- A value that is taken from two bytes. -/
theorem bits_across (byte next : BitVec 8) {count bitsLeft : Nat} (few : count ≤ 8)
    (less : bitsLeft < count)
    : bits count (lastBits count bitsLeft byte ||| next >>> (bitsLeft + (8 - count)))
        ++ bits (bitsLeft + (8 - count)) next
      = bits bitsLeft byte ++ bits 8 next := by
  have whole : bitsLeft + (count - bitsLeft) = count := by omega
  have eight : count - bitsLeft + (bitsLeft + (8 - count)) = 8 := by omega
  have clear : ∀ i < count - bitsLeft, (lastBits count bitsLeft byte).getLsbD i = false := by
    intro i below
    unfold lastBits
    rw [BitVec.getLsbD_shiftLeft]
    simp [below]
  have short : Short (count - bitsLeft) (next >>> (bitsLeft + (8 - count))) := by
    intro i above
    rw [BitVec.getLsbD_ushiftRight]
    exact BitVec.getLsbD_of_ge _ _ (by omega)
  have both : bits count (lastBits count bitsLeft byte ||| next >>> (bitsLeft + (8 - count)))
      = bits bitsLeft (lastBits count bitsLeft byte >>> (count - bitsLeft))
        ++ bits (count - bitsLeft) (next >>> (bitsLeft + (8 - count))) := by
    rw [← bits_or clear short, whole]
  have first : bits bitsLeft (lastBits count bitsLeft byte >>> (count - bitsLeft))
      = bits bitsLeft byte := by
    have parts := bits_add bitsLeft (count - bitsLeft) (lastBits count bitsLeft byte)
    rw [whole, bits_lastBits byte few less] at parts
    exact (List.append_inj parts.symm (by rw [length_bits, length_bits])).1
  rw [both, first, List.append_assoc, ← bits_add, eight]

/-- The values of Encode.
Witness: induction along the loop; a value takes bits of the current byte only, or its last bits and
the first ones of the next byte.
-/
theorem chunks_spec (byte : BitVec 8) (rest : List (BitVec 8)) {bitsLeft : Nat}
    (positive : 0 < bitsLeft) (inside : bitsLeft ≤ 8)
    : Chunked encoding (bits bitsLeft byte ++ stream 8 rest) bitsLeft
        (encoding.chunks byte rest bitsLeft) := by
  obtain ⟨some_, few⟩ := encoding.valid
  fun_induction encoding.chunks byte rest bitsLeft with
  | case1 byte bitsLeft enough thisC used =>
      have moved : 8 = encoding.nextBitsLeft bitsLeft := by
        unfold nextBitsLeft
        split <;> omega
      have within := bits_within byte few.le enough
      rw [used, bits, List.append_nil] at within
      refine Chunked.last (short_mask _) moved some_ ?_
      rw [stream_nil, List.append_nil, List.replicate_zero, List.append_nil, ← within]
      dsimp only [thisC]
      rw [used]
  | case2 byte bitsLeft enough thisC used next rest values left_ result ih =>
      have moved : 8 = encoding.nextBitsLeft bitsLeft := by
        unfold nextBitsLeft
        split <;> omega
      have within := bits_within byte few.le enough
      have following := ih (by decide) le_rfl
      rw [result] at following
      refine Chunked.cons (short_mask _) moved ?_ following
      rw [used, bits, List.append_nil] at within
      rw [stream_cons, ← within]
      dsimp only [thisC]
      rw [used]
  | case3 byte rest bitsLeft enough thisC room values left_ result ih =>
      have moved : bitsLeft - encoding.bitsPerChar = encoding.nextBitsLeft bitsLeft := by
        rw [nextBitsLeft, if_pos (by omega)]
      have following := ih (by omega) (by omega)
      rw [result] at following
      refine Chunked.cons (short_mask _) moved ?_ following
      rw [← List.append_assoc]
      exact congrArg (· ++ stream 8 rest) (bits_within byte few.le enough)
  | case4 byte bitsLeft less thisC =>
      have less := Nat.not_le.mp less
      have moved : bitsLeft + (8 - encoding.bitsPerChar) = encoding.nextBitsLeft bitsLeft := by
        rw [nextBitsLeft, if_neg (by omega)]
      refine Chunked.last (short_lastBits byte less) moved
        (Nat.sub_lt some_ positive : encoding.bitsPerChar - bitsLeft < encoding.bitsPerChar) ?_
      rw [stream_nil, List.append_nil]
      exact bits_lastBits byte few.le less
  | case5 byte bitsLeft less thisC left_ next rest values last result ih =>
      have less := Nat.not_le.mp less
      have moved : left_ = encoding.nextBitsLeft bitsLeft := by
        rw [nextBitsLeft, if_neg (by omega)]
      have following := ih (by omega) (by omega)
      rw [result] at following
      have short : Short encoding.bitsPerChar (thisC ||| next >>> left_) := by
        intro i above
        have first : thisC.getLsbD i = false := short_lastBits byte less i above
        rw [BitVec.getLsbD_or, first, Bool.false_or, BitVec.getLsbD_ushiftRight]
        exact BitVec.getLsbD_of_ge _ _ (by omega)
      refine Chunked.cons short moved ?_ following
      rw [stream_cons, ← List.append_assoc, ← List.append_assoc]
      exact congrArg (· ++ stream 8 rest) (bits_across byte next few.le less)

/-- Every value is a character of the alphabet, which decodes to it. -/
theorem mapM_encodeChar (lawful : Lawful encoding) {values : List (BitVec 8)}
    (short : ∀ value ∈ values, Short encoding.bitsPerChar value)
    : ∃ characters, values.mapM encoding.encodeChar = some characters
        ∧ (∀ character ∈ characters, encoding.InAlphabet character)
        ∧ characters.map encoding.decodeChar = values := by
  induction values with
  | nil => exact ⟨[], rfl, by simp, rfl⟩
  | cons value values ih =>
      obtain ⟨characters, mapped, all, decoded⟩ :=
        ih (fun other member => short other (List.mem_cons_of_mem _ member))
      obtain ⟨character, encoded, inside, back⟩ :=
        lawful.encoded value (short_iff_lt.mp (short value List.mem_cons_self))
      refine ⟨character :: characters, ?_, ?_, ?_⟩
      · rw [List.mapM_cons, encoded, mapped]
        rfl
      · intro other member
        rcases List.mem_cons.mp member with rfl | behind
        · exact inside
        · exact all other behind
      · rw [List.map_cons, back, decoded]

/-- What Encode makes of bytes spells them, with all the padding that is called for. -/
theorem encode_spells (lawful : Lawful encoding) (bytes : List (BitVec 8))
    : ∃ data characters pads, encoding.encode bytes = some data
        ∧ Spells encoding data characters pads bytes := by
  cases bytes with
  | nil => exact ⟨[], [], 0, rfl, rfl, by simp, Nat.zero_le _, by simp, by simp⟩
  | cons byte rest =>
      obtain ⟨⟨surplus, few, same⟩, short, position⟩ :=
        @chunks_spec encoding byte rest 8 (by decide) le_rfl
      obtain ⟨characters, mapped, all, decoded⟩ := mapM_encodeChar lawful short
      have count : (encoding.chunks byte rest 8).1.length = characters.length := by
        rw [← decoded, List.length_map]
      rw [count] at position
      have padded := pad_eq encoding (encoding.paddingSize_le characters.length)
      rw [← position] at padded
      rw [← stream_cons, ← decoded] at same
      have fewBits : (List.replicate surplus false).length < 8 := by
        rw [List.length_replicate]
        exact few.trans encoding.valid.2
      have cut := whole_bytes same fewBits
      rw [length_stream, List.length_map] at cut
      refine ⟨_, characters, _, ?_, rfl, all, le_rfl, cut.1.symm, ?_⟩
      · unfold encode
        dsimp only
        rw [mapped, padded]
        rfl
      · rw [cut.2]
        exact fun bit member => List.eq_of_mem_replicate member

-- Base32 and Base64

def IsLetter (character : BitVec 8) : Prop :=
  (byte 'A' ≤ character ∧ character ≤ byte 'Z') ∨ (byte 'a' ≤ character ∧ character ≤ byte 'z')

instance (character : BitVec 8) : Decidable (IsLetter character) :=
  inferInstanceAs (Decidable (_ ∨ _))

/-- The characters that Base32 decodes, those that stand for others included. -/
theorem inAlphabet_base32 (character : BitVec 8)
    : base32.InAlphabet character
      ↔ IsLetter character ∨ (byte '0' ≤ character ∧ character ≤ byte '8') := by
  revert character
  decide +kernel

theorem inAlphabet_base64 (character : BitVec 8)
    : base64.InAlphabet character
      ↔ IsLetter character ∨ (byte '0' ≤ character ∧ character ≤ byte '9')
        ∨ character = byte '+' ∨ character = byte '/' := by
  revert character
  decide +kernel

/-- The law of single characters, as one that can be tried on every value. -/
theorem encoded_of_all
    (all : ∀ value : BitVec 8, value.toNat < 2 ^ encoding.bitsPerChar →
      (encoding.encodeChar value).isSome
      ∧ (encoding.encodeChar value).all (fun character =>
          encoding.InAlphabet character ∧ encoding.decodeChar character = value))
    (value : BitVec 8) (small : value.toNat < 2 ^ encoding.bitsPerChar)
    : ∃ character, encoding.encodeChar value = some character
        ∧ encoding.InAlphabet character ∧ encoding.decodeChar character = value := by
  obtain ⟨some_, each⟩ := all value small
  obtain ⟨character, encoded⟩ := Option.isSome_iff_exists.mp some_
  rw [encoded] at each
  exact ⟨character, encoded, of_decide_eq_true each⟩

theorem lawful_base32 : Lawful base32 where
  padding := by decide
  decoded := by decide
  encoded := encoded_of_all (by decide)

theorem lawful_base64 : Lawful base64 where
  padding := by decide
  decoded := by decide
  encoded := encoded_of_all (by decide)

/-- An encoding whose strings carry bytes: Decode gives back what Encode made a string of, and it
accepts what spells bytes, and nothing else.
-/
structure Exact (encoding : BaseEncoding) : Prop where
  roundTrip
    : ∀ bytes, ∃ data, encoding.encode bytes = some data ∧ encoding.decode data = some bytes
  language
    : ∀ data bytes, encoding.decode data = some bytes
        ↔ ∃ characters pads, Spells encoding data characters pads bytes

theorem Lawful.exact (lawful : Lawful encoding) : Exact encoding where
  roundTrip bytes := by
    obtain ⟨data, characters, pads, encoded, spells⟩ := encode_spells lawful bytes
    exact ⟨data, encoded, (decode_eq_some_iff lawful data bytes).mpr ⟨characters, pads, spells⟩⟩
  language := decode_eq_some_iff lawful

/-- Both encodings are exact, over the letters and digits that they decode; padding goes up to the
next eight characters in Base32, and up to the next four in Base64.
-/
theorem base_encodings_are_exact
    : Exact base32 ∧ Exact base64
      ∧ (∀ character, base32.InAlphabet character
          ↔ IsLetter character ∨ (byte '0' ≤ character ∧ character ≤ byte '8'))
      ∧ (∀ character, base64.InAlphabet character
          ↔ IsLetter character ∨ (byte '0' ≤ character ∧ character ≤ byte '9')
            ∨ character = byte '+' ∨ character = byte '/')
      ∧ (∀ count, base32.paddingSize count = (8 - count % 8) % 8)
      ∧ (∀ count, base64.paddingSize count = (4 - count % 4) % 4) :=
  ⟨lawful_base32.exact, lawful_base64.exact, inAlphabet_base32, inAlphabet_base64,
    fun _ => rfl, fun _ => rfl⟩

/-- Two bytes with and without their padding, and one padding too many. -/
example
    : base64.decode ("TWE=".toList.map byte) = some [byte 'M', byte 'a']
      ∧ base64.decode ("TWE".toList.map byte) = some [byte 'M', byte 'a']
      ∧ base64.decode ("TWE==".toList.map byte) = none := by
  decide +kernel

end BaseEncoding

end WarheadCore.Encoding
