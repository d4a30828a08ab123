import WarheadCore.Foundation.MachineIntegers

/-! Bytes as upper-case hexadecimal texts and back, from the first byte on or from the last one on.
The two walks mirror each other as long as the length of the text fits into their counters.
-/

namespace WarheadCore.Utilities

open Foundation

-- The two functions

/-- An element at a counter; an index outside is undefined. -/
def elementAt {α : Type} (elements : List α) (i : Int) : Option α :=
  if 0 ≤ i then elements[i.toNat]? else none

def hexDigit (value : Nat) : Char :=
  if value < 10 then Char.ofNat (48 + value) else Char.ofNat (55 + value)

def hexByte (byte : BitVec 8) : List Char := [hexDigit (byte.toNat / 16), hexDigit (byte.toNat % 16)]

def appendHex (bytes : List (BitVec 8)) (i : Int) (ss : List Char) : Option (List Char) := do
  let byte ← elementAt bytes i
  return ss ++ hexByte byte

def byteArrayToHexStr (fuel : Nat) (bytes : List (BitVec 8)) (reverse : Bool)
    : Option (List Char) :=
  let init := if reverse then toInt32 (bytes.length - 1) else 0
  let stop := if reverse then -1 else toInt32 bytes.length
  let op := if reverse then -1 else 1
  forInt32 stop op (appendHex bytes) fuel init []

def isSpace (c : Char) : Bool := c = ' ' ∨ 9 ≤ c.toNat ∧ c.toNat ≤ 13

def digitValue (c : Char) : Option Nat :=
  if '0' ≤ c ∧ c ≤ '9' then some (c.toNat - 48)
  else if 'A' ≤ c ∧ c ≤ 'F' then some (c.toNat - 55)
  else if 'a' ≤ c ∧ c ≤ 'f' then some (c.toNat - 87)
  else none

def hexNumber : Nat → List Char → Nat
  | value, [] => value
  | value, c :: rest =>
      match digitValue c with
      | none => value
      | some digit => hexNumber (16 * value + digit) rest

/-- strtoul of base 16 for a buffer of two letters; a prefix 0x would have no digit behind it. -/
def strtoul (buffer : List Char) : Nat :=
  match buffer.dropWhile isSpace with
  | '-' :: rest => (2 ^ 64 - hexNumber 0 rest) % 2 ^ 64
  | '+' :: rest => hexNumber 0 rest
  | text => hexNumber 0 text

/-- A round of the loop of HexStrToByteArray, with the next place of the array. -/
def storeByte (str : List Char) (i : Int) (state : Nat × List (BitVec 8))
    : Option (Nat × List (BitVec 8)) := do
  let first ← elementAt str i
  let second ← elementAt str (i + 1)
  if state.1 < state.2.length then
    some (state.1 + 1, state.2.set state.1 (BitVec.ofNat 8 (strtoul [first, second])))
  else none

/-- The array is filled from its first byte on; the text must have two letters for each byte. -/
def hexStrToByteArray (fuel : Nat) (str : List Char) (out : List (BitVec 8)) (reverse : Bool)
    : Option (List (BitVec 8)) :=
  if str.length = 2 * out.length then
    let init := if reverse then toInt32 (str.length - 2) else 0
    let stop := if reverse then -2 else toInt32 str.length
    let op := if reverse then -1 else 1
    (forInt32 stop (2 * op) (storeByte str) fuel init (0, out)).map Prod.snd
  else none

-- Bytes and letters

def hexString (bytes : List (BitVec 8)) : List Char := bytes.flatMap hexByte

def UpperHex (c : Char) : Prop := ∃ value < 16, c = hexDigit value

theorem length_hexString (bytes : List (BitVec 8)) : (hexString bytes).length = 2 * bytes.length := by
  induction bytes with
  | nil => rfl
  | cons byte rest ih =>
      have own : (hexString (byte :: rest)).length = 2 + (hexString rest).length := by
        unfold hexString
        rw [List.flatMap_cons, List.length_append]
        rfl
      rw [own, ih, List.length_cons]
      omega

theorem strtoul_hexByte (byte : BitVec 8) : BitVec.ofNat 8 (strtoul (hexByte byte)) = byte := by
  have all : ∀ value : Fin 256,
      BitVec.ofNat 8 (strtoul (hexByte (BitVec.ofNat 8 value))) = BitVec.ofNat 8 value := by
    decide +kernel
  have own := all ⟨byte.toNat, byte.isLt⟩
  rwa [BitVec.ofNat_toNat, BitVec.setWidth_eq] at own

/-- Two letters that %X writes are those of a byte. -/
theorem exists_hexByte {first second : Char} (upper : UpperHex first) (upper' : UpperHex second)
    : ∃ byte, hexByte byte = [first, second] := by
  obtain ⟨high, highLt, rfl⟩ := upper
  obtain ⟨low, lowLt, rfl⟩ := upper'
  refine ⟨BitVec.ofNat 8 (16 * high + low), ?_⟩
  have number : (BitVec.ofNat 8 (16 * high + low)).toNat = 16 * high + low := by
    rw [BitVec.toNat_ofNat, Nat.mod_eq_of_lt (by omega)]
  have upperHalf : (16 * high + low) / 16 = high := by omega
  have lowerHalf : (16 * high + low) % 16 = low := by omega
  unfold hexByte
  rw [number, upperHalf, lowerHalf]

/-- A text of an even number of such letters is one of bytes. -/
theorem exists_hexString {count : Nat} {str : List Char} (upper : ∀ c ∈ str, UpperHex c)
    (length : str.length = 2 * count)
    : ∃ bytes, bytes.length = count ∧ hexString bytes = str := by
  induction count generalizing str with
  | zero => exact ⟨[], rfl, (List.eq_nil_of_length_eq_zero length).symm⟩
  | succ count ih =>
      cases str with
      | nil => exact absurd length (by simp)
      | cons first rest =>
          cases rest with
          | nil =>
              rw [List.length_singleton] at length
              omega
          | cons second rest =>
              rw [List.forall_mem_cons, List.forall_mem_cons] at upper
              rw [List.length_cons, List.length_cons] at length
              obtain ⟨byte, own⟩ := exists_hexByte upper.1 upper.2.1
              obtain ⟨bytes, same, others⟩ := ih upper.2.2 (by omega)
              refine ⟨byte :: bytes, congrArg (· + 1) same, ?_⟩
              unfold hexString at others ⊢
              rw [List.flatMap_cons, own, others]
              rfl

theorem elementAt_append {α : Type} (front : List α) (item : α) (back : List α)
    : elementAt (front ++ item :: back) front.length = some item := by
  unfold elementAt
  rw [if_pos (Int.natCast_nonneg _), Int.toNat_natCast, List.getElem?_append_right le_rfl,
    Nat.sub_self, List.getElem?_cons_zero]

-- The walks

variable {bytes out : List (BitVec 8)} {str : List Char} {fuel : Nat}

/-- Rounds that read these bytes append their text. -/
theorem foldlM_appendHex {is : List Int} {read : List (BitVec 8)}
    (reads : List.Forall₂ (fun i byte => elementAt bytes i = some byte) is read) (ss : List Char)
    : is.foldlM (fun ss i => appendHex bytes i ss) ss = some (ss ++ hexString read) := by
  induction reads generalizing ss with
  | nil => exact congrArg some (List.append_nil ss).symm
  | @cons i byte is read first rest ih =>
      have own : appendHex bytes i ss = some (ss ++ hexByte byte) := by
        unfold appendHex
        rw [first]
        rfl
      rw [List.foldlM_cons, own, Option.bind_eq_bind, Option.bind_some, ih, List.append_assoc]
      rfl

def ReadsByte (str : List Char) (i : Int) (byte : BitVec 8) : Prop :=
  ∃ first second, elementAt str i = some first ∧ elementAt str (i + 1) = some second
    ∧ hexByte byte = [first, second]

/-- Rounds that read these bytes store them, in order. -/
theorem foldlM_storeByte {is : List Int} {read : List (BitVec 8)}
    (reads : List.Forall₂ (ReadsByte str) is read) (done rest : List (BitVec 8))
    (length : rest.length = read.length)
    : is.foldlM (fun state i => storeByte str i state) (done.length, done ++ rest)
      = some (done.length + read.length, done ++ read) := by
  induction reads generalizing done rest with
  | nil => rw [List.eq_nil_of_length_eq_zero length]; rfl
  | @cons i byte is read first later ih =>
      obtain ⟨high, low, atHigh, atLow, letters⟩ := first
      cases rest with
      | nil => exact absurd length (by simp)
      | cons old rest =>
          have inside : done.length < (done ++ old :: rest).length := by
            rw [List.length_append, List.length_cons]
            omega
          have own : storeByte str i (done.length, done ++ old :: rest)
              = some ((done ++ [byte]).length, (done ++ [byte]) ++ rest) := by
            unfold storeByte
            rw [atHigh, atLow, Option.bind_eq_bind, Option.bind_some, Option.bind_some,
              if_pos inside, ← letters, strtoul_hexByte, List.set_append_right _ _ le_rfl,
              Nat.sub_self, List.set_cons_zero, List.length_append, List.append_assoc]
            rfl
          rw [List.foldlM_cons, own, Option.bind_eq_bind, Option.bind_some,
            ih (done ++ [byte]) rest (Nat.succ.inj length)]
          refine congrArg some (Prod.ext ?_ (List.append_assoc _ _ _))
          rw [List.length_append, List.length_singleton, List.length_cons]
          dsimp only
          omega

theorem readsByte_hexString (front : List (BitVec 8)) (byte : BitVec 8) (back : List (BitVec 8))
    : ReadsByte (hexString (front ++ byte :: back)) (2 * front.length) byte := by
  have cut : hexString (front ++ byte :: back)
      = hexString front ++ hexDigit (byte.toNat / 16) ::
        (hexDigit (byte.toNat % 16) :: hexString back) := by
    unfold hexString
    rw [List.flatMap_append, List.flatMap_cons]
    rfl
  have place : (2 * front.length : Int) = ((hexString front).length : Int) := by
    rw [length_hexString]
    rfl
  have next : (2 * front.length + 1 : Int)
      = ((hexString front ++ [hexDigit (byte.toNat / 16)]).length : Int) := by
    rw [List.length_append, length_hexString]
    rfl
  refine ⟨_, _, ?_, ?_, rfl⟩
  · rw [cut, place]
    exact elementAt_append _ _ _
  · rw [cut, next, List.append_cons]
    exact elementAt_append _ _ _

theorem elementAt_take {count : Nat} (front : List (BitVec 8)) (byte : BitVec 8)
    (back : List (BitVec 8)) (cut : bytes.take count = front ++ byte :: back)
    : elementAt bytes (1 * front.length) = some byte := by
  have whole : bytes = front ++ byte :: (back ++ bytes.drop count) := by
    rw [← List.cons_append, ← List.append_assoc, ← cut, List.take_append_drop]
  rw [whole, Int.one_mul]
  exact elementAt_append _ _ _

theorem foldlM_upward {count : Nat} (few : count ≤ bytes.length)
    : (counters 1 count 0).foldlM (fun ss i => appendHex bytes i ss) []
      = some (hexString (bytes.take count)) := by
  have reads := @forall₂_counters_up _ (fun i byte => elementAt bytes i = some byte) 1 _
    elementAt_take [] _ (List.nil_append (bytes.take count)).symm
  rw [List.length_take_of_le few] at reads
  exact foldlM_appendHex reads []

theorem foldlM_downward {count : Nat} (few : count ≤ bytes.length)
    : (counters (-1) count (count - 1)).foldlM (fun ss i => appendHex bytes i ss) []
      = some (hexString (bytes.take count).reverse) := by
  have reads := @forall₂_counters_down _ (fun i byte => elementAt bytes i = some byte) 1 _
    elementAt_take _ [] (List.append_nil (bytes.take count)).symm
  rw [List.length_take_of_le few, Int.one_mul] at reads
  exact foldlM_appendHex reads []

/-- The bytes up to the bound are written; a negative bound is never reached. -/
theorem byteArrayToHexStr_forward (enough : bytes.length < fuel)
    : byteArrayToHexStr fuel bytes false
      = if 0 ≤ toInt32 bytes.length then
          some (hexString (bytes.take (toInt32 bytes.length).toNat))
        else none := by
  have range := toInt32_range bytes.length
  have few : (toInt32 bytes.length).toNat ≤ bytes.length := by
    unfold toInt32
    omega
  unfold byteArrayToHexStr
  simp only [Bool.false_eq_true, if_false]
  split
  · rename_i positive
    rw [← foldlM_upward few]
    exact forInt32_eq_foldlM (by decide) (by omega) (by omega) (by omega) []
  · exact forInt32_eq_none (by omega) _ _

/-- The bytes from the first counter down are written; a negative counter has no byte. -/
theorem byteArrayToHexStr_backward (enough : bytes.length < fuel)
    : byteArrayToHexStr fuel bytes true
      = if -1 ≤ toInt32 (bytes.length - 1) then
          some (hexString (bytes.take (toInt32 (bytes.length - 1) + 1).toNat).reverse)
        else none := by
  have range := toInt32_range (bytes.length - 1)
  have few : (toInt32 (bytes.length - 1) + 1).toNat ≤ bytes.length := by
    unfold toInt32
    omega
  unfold byteArrayToHexStr
  simp only [if_true]
  split
  · rename_i positive
    have first : toInt32 (bytes.length - 1)
        = ((toInt32 (bytes.length - 1) + 1).toNat : Int) - 1 := by omega
    rw [← foldlM_downward few, ← first]
    exact forInt32_eq_foldlM (by decide) (by omega) (by omega) (by omega) []
  · rename_i negative
    obtain ⟨fuel, rfl⟩ : ∃ more, fuel = more + 1 := ⟨fuel - 1, by omega⟩
    have outside : appendHex bytes (toInt32 (bytes.length - 1)) [] = none := by
      unfold appendHex elementAt
      rw [if_neg (by omega)]
      rfl
    rw [forInt32, if_neg (by omega), outside]
    rfl

/-- An array keeps its length, and the text has two letters for each of its bytes. -/
theorem hexStrToByteArray_length {reverse : Bool}
    (done : hexStrToByteArray fuel str out reverse = some bytes)
    : str.length = 2 * out.length ∧ bytes.length = out.length := by
  unfold hexStrToByteArray at done
  split at done
  · rename_i asserted
    obtain ⟨state, walked, rfl⟩ := Option.map_eq_some_iff.mp done
    refine ⟨asserted, @forInt32_preserves _ _ _ _ (fun state => state.2.length = out.length)
      (fun i state later same stored => ?_) _ _ _ _ rfl walked⟩
    unfold storeByte at stored
    obtain ⟨first, -, stored⟩ := Option.bind_eq_some_iff.mp stored
    obtain ⟨second, -, stored⟩ := Option.bind_eq_some_iff.mp stored
    split at stored
    · rw [← Option.some.inj stored]
      exact List.length_set.trans same
    · exact absurd stored (Option.some_ne_none _).symm
  · exact absurd done (Option.some_ne_none _).symm

section Reading

variable (length : out.length = bytes.length) (enough : bytes.length < fuel)

include length enough

theorem hexStrToByteArray_forward (fits : bytes.length < 2 ^ 30)
    : hexStrToByteArray fuel (hexString bytes) out false = some bytes := by
  have letters := length_hexString bytes
  have narrow : toInt32 (hexString bytes).length = 2 * bytes.length := by
    rw [letters, toInt32_of_range (by omega) (by omega)]
    rfl
  have reads := @forall₂_counters_up _ (ReadsByte (hexString bytes)) 2 bytes
    (fun front byte back cut => cut ▸ readsByte_hexString front byte back) [] bytes rfl
  have walk := @forInt32_eq_foldlM _ (2 * bytes.length) (2 * 1) (storeByte (hexString bytes))
    (by decide) bytes.length 0 (by omega) (by omega) fuel enough (0, out)
  unfold hexStrToByteArray
  simp only [Bool.false_eq_true, if_false]
  rw [if_pos (by rw [letters, length]), narrow, walk]
  exact congrArg (Option.map Prod.snd) (foldlM_storeByte reads [] out length)

theorem hexStrToByteArray_backward (fits : bytes.length ≤ 2 ^ 30)
    : hexStrToByteArray fuel (hexString bytes) out true = some bytes.reverse := by
  have letters := length_hexString bytes
  have first : toInt32 ((hexString bytes).length - 2) = 2 * bytes.length - 2 := by
    rw [letters, toInt32_of_range (by omega) (by omega)]
    push_cast
    rfl
  have reads := @forall₂_counters_down _ (ReadsByte (hexString bytes)) 2 bytes
    (fun front byte back cut => cut ▸ readsByte_hexString front byte back) bytes []
    (List.append_nil bytes).symm
  have walk := @forInt32_eq_foldlM _ (-2) (2 * -1) (storeByte (hexString bytes))
    (by decide) bytes.length (2 * bytes.length - 2) (by omega) (by omega) fuel enough (0, out)
  unfold hexStrToByteArray
  simp only [if_true]
  rw [if_pos (by rw [letters, length]), first, walk]
  exact congrArg (Option.map Prod.snd)
    (foldlM_storeByte reads [] out (length.trans List.length_reverse.symm))

end Reading

-- Texts that are too long

section Lengths

variable {count : Nat} (letters : str.length = 2 * count) (length : out.length = count)

include letters length

theorem hexStrToByteArray_forward_none (low : 2 ^ 30 ≤ count) (high : count < 2 ^ 31)
    : hexStrToByteArray fuel str out false = none := by
  have negative : toInt32 str.length < 0 := by
    rw [letters]
    unfold toInt32
    omega
  unfold hexStrToByteArray
  simp only [Bool.false_eq_true, if_false]
  rw [if_pos (by rw [letters, length]), forInt32_eq_none (by omega)]
  rfl

/-- A walk from the end starts at the bound itself, or outside. -/
theorem hexStrToByteArray_backward_of_large (low : 2 ^ 30 < count) (high : count ≤ 2 ^ 31)
    (enough : count < fuel)
    : hexStrToByteArray fuel str out true = if count = 2 ^ 31 then some out else none := by
  have first : toInt32 (str.length - 2) = 2 * count - 2 - 0x100000000 := by
    rw [letters]
    unfold toInt32
    omega
  obtain ⟨fuel, rfl⟩ : ∃ more, fuel = more + 1 := ⟨fuel - 1, by omega⟩
  unfold hexStrToByteArray
  simp only [if_true]
  rw [if_pos (by rw [letters, length]), first, forInt32]
  by_cases whole : count = 2 ^ 31
  · rw [if_pos (by omega), if_pos whole]
    rfl
  · have outside : storeByte str (2 * count - 2 - 0x100000000) (0, out) = none := by
      unfold storeByte elementAt
      rw [if_neg (by omega)]
      rfl
    rw [if_neg (by omega), if_neg whole, outside]
    rfl

end Lengths

/-- An array whose text has all its letters was short enough, and this is its text. -/
theorem byteArrayToHexStr_whole {reverse : Bool} (enough : bytes.length < fuel)
    (done : byteArrayToHexStr fuel bytes reverse = some str)
    (letters : str.length = 2 * bytes.length)
    : (if reverse then bytes.length ≤ 2 ^ 31 else bytes.length < 2 ^ 31)
      ∧ str = hexString (if reverse then bytes.reverse else bytes) := by
  cases reverse with
  | false =>
      rw [byteArrayToHexStr_forward enough] at done
      split at done
      · rename_i positive
        obtain rfl := Option.some.inj done
        rw [length_hexString, List.length_take] at letters
        have all : (toInt32 bytes.length).toNat ≥ bytes.length := by omega
        have range := toInt32_range bytes.length
        rw [List.take_of_length_le all]
        exact ⟨by simp; omega, rfl⟩
      · exact absurd done (Option.some_ne_none _).symm
  | true =>
      rw [byteArrayToHexStr_backward enough] at done
      split at done
      · rename_i positive
        obtain rfl := Option.some.inj done
        rw [length_hexString, List.length_reverse, List.length_take] at letters
        have all : (toInt32 (bytes.length - 1) + 1).toNat ≥ bytes.length := by omega
        have range := toInt32_range (bytes.length - 1)
        rw [List.take_of_length_le all]
        exact ⟨by simp; omega, rfl⟩
      · exact absurd done (Option.some_ne_none _).symm

/-- An array that is short enough is written. -/
theorem byteArrayToHexStr_of_fits {reverse : Bool} (enough : bytes.length < fuel)
    (fits : if reverse then bytes.length ≤ 2 ^ 31 else bytes.length < 2 ^ 31)
    : byteArrayToHexStr fuel bytes reverse
      = some (hexString (if reverse then bytes.reverse else bytes)) := by
  cases reverse with
  | false =>
      have fits : bytes.length < 2 ^ 31 := fits
      have own : toInt32 bytes.length = bytes.length := toInt32_of_range (by omega) (by omega)
      rw [byteArrayToHexStr_forward enough, own, if_pos (Int.natCast_nonneg _), Int.toNat_natCast,
        List.take_length]
      rfl
  | true =>
      have fits : bytes.length ≤ 2 ^ 31 := fits
      have own : toInt32 (bytes.length - 1) = bytes.length - 1 :=
        toInt32_of_range (by omega) (by omega)
      rw [byteArrayToHexStr_backward enough, own, if_pos (by omega), Int.sub_add_cancel,
        Int.toNat_natCast, List.take_length]
      rfl

def HexFits (reverse : Bool) (count : Nat) : Prop :=
  if reverse then count ≤ 2 ^ 30 else count < 2 ^ 30

theorem replicate_texts_differ {count : Nat} (positive : 0 < count)
    : hexString (List.replicate count 0) ≠ hexString (List.replicate count 1) := by
  obtain ⟨rest, rfl⟩ := Nat.exists_eq_add_of_lt positive
  intro same
  have second := congrArg (fun text => text[1]?) same
  rw [Nat.zero_add, List.replicate_succ, List.replicate_succ] at second
  exact absurd (Option.some.inj second) (by decide)

/-- Whatever was decoded to the text of its length was decoded within the counters, or not at all. -/
theorem hexFits_of_decodes {reverse : Bool} {count : Nat} (letters : str.length = 2 * count)
    (enough : count < fuel)
    (decodes
      : ∀ out, out.length = count → ∃ bytes, hexStrToByteArray fuel str out reverse = some bytes)
    (fits : if reverse then count ≤ 2 ^ 31 else count < 2 ^ 31)
    : HexFits reverse count
      ∨ 0 < count ∧ ∀ out, out.length = count →
          hexStrToByteArray fuel str out reverse = some out := by
  have length := List.length_replicate (n := count) (a := (0 : BitVec 8))
  obtain ⟨bytes, done⟩ := decodes _ length
  by_contra! wrong
  obtain ⟨large, changed⟩ := wrong
  cases reverse with
  | false =>
      have fits : count < 2 ^ 31 := fits
      have low : 2 ^ 30 ≤ count := Nat.le_of_not_lt large
      rw [hexStrToByteArray_forward_none letters length low fits] at done
      exact absurd done (Option.some_ne_none _).symm
  | true =>
      have fits : count ≤ 2 ^ 31 := fits
      have low : 2 ^ 30 < count := Nat.lt_of_not_le large
      obtain ⟨out, own, other⟩ := changed (by omega)
      have kept := hexStrToByteArray_backward_of_large letters own low fits enough
      have first := hexStrToByteArray_backward_of_large letters length low fits enough
      rw [done] at first
      split at first
      · rename_i whole
        rw [if_pos whole] at kept
        exact other kept
      · exact absurd first (Option.some_ne_none _)

/-- The round trips of arrays and of upper-case texts, whatever the array held before, hold if and
only if the length of the text fits into the counters of the walks.
Witness: within the counters both walks read the same bytes in the same order; beyond them the text is
not decoded, or, for one length, nothing is stored.
-/
theorem hex_round_trip_iff (reverse : Bool)
    : (∀ (bytes : List (BitVec 8)) (fuel : Nat), bytes.length < fuel →
        ((∀ out, out.length = bytes.length →
            (byteArrayToHexStr fuel bytes reverse).bind
              (fun str => hexStrToByteArray fuel str out reverse) = some bytes)
          ↔ HexFits reverse bytes.length))
      ∧ ∀ (str : List Char) (count fuel : Nat), (∀ c ∈ str, UpperHex c) →
          str.length = 2 * count → count < fuel →
          ((∀ out, out.length = count →
              (hexStrToByteArray fuel str out reverse).bind
                (fun bytes => byteArrayToHexStr fuel bytes reverse) = some str)
            ↔ HexFits reverse count) := by
  have narrow {count : Nat} (fits : HexFits reverse count)
      : if reverse then count ≤ 2 ^ 31 else count < 2 ^ 31 := by
    cases reverse with
    | false => exact Nat.lt_trans fits (by decide)
    | true => exact Nat.le_trans fits (by decide)
  have decode {bytes out : List (BitVec 8)} {fuel : Nat} (length : out.length = bytes.length)
      (enough : bytes.length < fuel) (fits : HexFits reverse bytes.length)
      : hexStrToByteArray fuel (hexString (if reverse then bytes.reverse else bytes)) out reverse
        = some bytes := by
    cases reverse with
    | false => exact hexStrToByteArray_forward length enough fits
    | true =>
        have back := hexStrToByteArray_backward (length.trans List.length_reverse.symm)
          (by rwa [List.length_reverse]) (by rw [List.length_reverse]; exact fits)
        rwa [List.reverse_reverse] at back
  constructor
  · intro bytes fuel enough
    constructor
    · intro right
      obtain ⟨str, written, read⟩ := Option.bind_eq_some_iff.mp (right bytes rfl)
      have letters := (hexStrToByteArray_length read).1
      have decodes (out : List (BitVec 8)) (length : out.length = bytes.length)
          : hexStrToByteArray fuel str out reverse = some bytes := by
        have whole := right out length
        rwa [written, Option.bind_some] at whole
      refine (hexFits_of_decodes letters enough (fun out length => ⟨bytes, decodes out length⟩)
        (byteArrayToHexStr_whole enough written letters).1).resolve_right ?_
      rintro ⟨positive, kept⟩
      have same (byte : BitVec 8) : List.replicate bytes.length byte = bytes :=
        Option.some.inj ((kept _ List.length_replicate).symm.trans (decodes _ List.length_replicate))
      exact replicate_texts_differ positive (congrArg hexString ((same 0).trans (same 1).symm))
    · intro fits out length
      rw [byteArrayToHexStr_of_fits enough (narrow fits), Option.bind_some]
      exact decode length enough fits
  · intro str count fuel upper letters enough
    constructor
    · intro right
      have decodes (out : List (BitVec 8)) (length : out.length = count)
          : ∃ bytes, hexStrToByteArray fuel str out reverse = some bytes
              ∧ byteArrayToHexStr fuel bytes reverse = some str ∧ bytes.length = count := by
        obtain ⟨bytes, read, written⟩ := Option.bind_eq_some_iff.mp (right out length)
        exact ⟨bytes, read, written, (hexStrToByteArray_length read).2.trans length⟩
      have written (bytes : List (BitVec 8)) (length : bytes.length = count)
          (done : byteArrayToHexStr fuel bytes reverse = some str)
          := byteArrayToHexStr_whole (length.symm ▸ enough) done (by rw [length, letters])
      obtain ⟨bytes, -, done, length⟩ := decodes (List.replicate count 0) List.length_replicate
      have fits := (written bytes length done).1
      rw [length] at fits
      refine (hexFits_of_decodes letters enough (fun out length =>
        (decodes out length).imp fun _ all => all.1) fits).resolve_right ?_
      rintro ⟨positive, kept⟩
      have same (byte : BitVec 8) : str = hexString (List.replicate count byte) := by
        have length : (List.replicate count byte).length = count := List.length_replicate
        obtain ⟨bytes, read, done, -⟩ := decodes _ length
        obtain rfl := Option.some.inj ((kept _ length).symm.trans read)
        have text := (written _ length done).2
        rwa [List.reverse_replicate, ite_self] at text
      exact replicate_texts_differ positive ((same 0).symm.trans (same 1))
    · intro fits out length
      obtain ⟨read, size, rfl⟩ := exists_hexString upper letters
      have turned : (if reverse then (if reverse then read.reverse else read).reverse
          else if reverse then read.reverse else read) = read := by
        cases reverse with
        | false => rfl
        | true => exact List.reverse_reverse read
      have size' : (if reverse then read.reverse else read).length = count := by
        cases reverse with
        | false => exact size
        | true => exact List.length_reverse.trans size
      have decoded := @decode (if reverse then read.reverse else read) out fuel
        (length.trans size'.symm) (size'.symm ▸ enough) (size'.symm ▸ fits)
      have encoded := @byteArrayToHexStr_of_fits (if reverse then read.reverse else read) fuel reverse
        (size'.symm ▸ enough) (size'.symm ▸ narrow fits)
      rw [turned] at decoded encoded
      rw [decoded, Option.bind_some, encoded]

/-- A gigabyte of bytes is written, but its text is too long to be read. -/
theorem hex_text_is_too_long
    : byteArrayToHexStr (2 ^ 31) (List.replicate (2 ^ 30) 0) false
        = some (hexString (List.replicate (2 ^ 30) 0))
      ∧ hexStrToByteArray (2 ^ 31) (hexString (List.replicate (2 ^ 30) 0))
          (List.replicate (2 ^ 30) 0) false = none := by
  have length : (List.replicate (2 ^ 30) (0 : BitVec 8)).length = 2 ^ 30 := List.length_replicate
  generalize List.replicate (2 ^ 30) (0 : BitVec 8) = bytes at length ⊢
  have enough : bytes.length < 2 ^ 31 := by omega
  have letters : (hexString bytes).length = 2 * 2 ^ 30 := by rw [length_hexString, length]
  exact ⟨@byteArrayToHexStr_of_fits bytes (2 ^ 31) false enough enough,
    hexStrToByteArray_forward_none letters length le_rfl (by omega)⟩

end WarheadCore.Utilities
