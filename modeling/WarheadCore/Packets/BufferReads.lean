import WarheadCore.Foundation.Runs
import WarheadCore.Packets.ByteBuffer

/-! What a read returns is made of the bytes that it consumes, which are all inside of the buffer.
A string ends where the buffer does; every other read throws when it would go past the end.
-/

namespace WarheadCore.Packets

open Foundation

namespace ByteBuffer

def remaining (buffer : ByteBuffer) : List (BitVec 8) := buffer.storage.drop buffer.rpos

def advance (buffer : ByteBuffer) (count : Nat) : ByteBuffer :=
  { buffer with rpos := buffer.rpos + count }

def Inside (buffer : ByteBuffer) : Prop := buffer.rpos ≤ buffer.size

variable {buffer : ByteBuffer}

@[simp] theorem remaining_advance (buffer : ByteBuffer) (count : Nat)
    : (buffer.advance count).remaining = buffer.remaining.drop count :=
  List.drop_drop.symm

@[simp] theorem advance_advance (buffer : ByteBuffer) (first later : Nat)
    : (buffer.advance first).advance later = buffer.advance (first + later) := by
  unfold advance
  rw [Nat.add_assoc]

@[simp] theorem advance_zero (buffer : ByteBuffer) : buffer.advance 0 = buffer := rfl

theorem length_remaining (buffer : ByteBuffer)
    : buffer.remaining.length = buffer.size - buffer.rpos := List.length_drop

theorem Inside.add_length (inside : buffer.Inside)
    : buffer.rpos + buffer.remaining.length = buffer.size := by
  rw [length_remaining]
  exact Nat.add_sub_cancel' inside

theorem Inside.advance (inside : buffer.Inside) {count : Nat}
    (enough : count ≤ buffer.remaining.length)
    : (buffer.advance count).Inside := by
  have total := inside.add_length
  change buffer.rpos + count ≤ buffer.size
  omega

/-- Positions in the buffer do not wrap. -/
theorem Inside.no_wrap (inside : buffer.Inside) {count : Nat} (few : count ≤ 2 ^ 63)
    : (buffer.rpos + count) % 2 ^ 64 = buffer.rpos + count := by
  have bounded : buffer.size < 2 ^ 63 := buffer.bounded
  have inside : buffer.rpos ≤ buffer.size := inside
  exact Nat.mod_eq_of_lt (by omega)

end ByteBuffer

namespace Reader

variable {α β : Type} {buffer : ByteBuffer}

@[simp] theorem pure_apply (value : α) (buffer : ByteBuffer)
    : (Pure.pure value : Reader α) buffer = (.ok value, buffer) := rfl

@[simp] theorem throw_apply (fault : ByteBufferException) (buffer : ByteBuffer)
    : (throw fault : Reader α) buffer = (.error fault, buffer) := rfl

theorem bind_of_ok {first : Reader α} {next : α → Reader β} {value : α} {after : ByteBuffer}
    (done : first buffer = (.ok value, after))
    : (first >>= next) buffer = next value after := by
  change bind first next buffer = _
  rw [bind, done]

theorem bind_of_error {first : Reader α} {next : α → Reader β} {fault : ByteBufferException}
    {after : ByteBuffer} (failed : first buffer = (.error fault, after))
    : (first >>= next) buffer = (.error fault, after) := by
  change bind first next buffer = _
  rw [bind, failed]

-- Numbers

theorem readBytes_of_le (inside : buffer.Inside) {count : Nat} (few : count ≤ 2 ^ 63)
    (enough : count ≤ buffer.remaining.length)
    : readBytes count buffer = (.ok (buffer.remaining.take count), buffer.advance count) := by
  have total := inside.add_length
  unfold readBytes
  rw [inside.no_wrap few, if_neg (by omega)]
  rfl

theorem readBytes_of_lt (inside : buffer.Inside) {count : Nat} (few : count ≤ 2 ^ 63)
    (short : buffer.remaining.length < count)
    : readBytes count buffer = (.error .position, buffer) := by
  have total := inside.add_length
  unfold readBytes
  rw [inside.no_wrap few, if_pos (by omega)]

theorem size_bounds (type : NumberType) : 0 < type.size ∧ type.size ≤ 2 ^ 63 := by
  cases type <;> decide

theorem readNumber_of_le (inside : buffer.Inside) {type : NumberType}
    (enough : type.size ≤ buffer.remaining.length)
    : readNumber type buffer
      = (.ok (LittleEndian.ofBytes (buffer.remaining.take type.size)),
          buffer.advance type.size) :=
  bind_of_ok (readBytes_of_le inside (size_bounds type).2 enough)

theorem readNumber_of_lt (inside : buffer.Inside) {type : NumberType}
    (short : buffer.remaining.length < type.size)
    : readNumber type buffer = (.error .position, buffer) :=
  bind_of_error (readBytes_of_lt inside (size_bounds type).2 short)

/-- A byte that is there is read. -/
theorem readByte (inside : buffer.Inside) {byte : BitVec 8} {rest : List (BitVec 8)}
    (there : buffer.remaining = byte :: rest)
    : readUint8 buffer = (.ok byte, buffer.advance 1)
      ∧ readChar buffer = (.ok byte, buffer.advance 1) := by
  have word : (LittleEndian.ofBytes [byte] : BitVec 8) = byte := by
    simp [LittleEndian.ofBytes]
  have enough : 1 ≤ buffer.remaining.length := by
    rw [there, List.length_cons]
    exact Nat.le_add_left _ _
  have read := readBytes_of_le inside (by decide) enough
  rw [there, List.take_succ_cons, List.take_zero] at read
  have result : (Except.ok (LittleEndian.ofBytes [byte] : BitVec 8), buffer.advance 1)
      = ((Except.ok byte : Except ByteBufferException _), buffer.advance 1) := by
    rw [word]
  exact ⟨(bind_of_ok read).trans result, (bind_of_ok read).trans result⟩

-- Strings

def Terminates (stop rest : List (BitVec 8)) : Prop := stop = [0] ∨ stop = [] ∧ rest = []

/-- Bytes start with a string. -/
theorem exists_text (bytes : List (BitVec 8))
    : ∃ text stop rest, bytes = text ++ stop ++ rest ∧ 0 ∉ text ∧ Terminates stop rest := by
  induction bytes with
  | nil => exact ⟨[], [], [], rfl, List.not_mem_nil, .inr ⟨rfl, rfl⟩⟩
  | cons byte bytes ih =>
      by_cases null : byte = 0
      · exact ⟨[], [0], bytes, by rw [null]; rfl, List.not_mem_nil, .inl rfl⟩
      · obtain ⟨text, stop, rest, rfl, free, ends⟩ := ih
        refine ⟨byte :: text, stop, rest, rfl, ?_, ends⟩
        rw [List.mem_cons, not_or]
        exact ⟨Ne.symm null, free⟩

/-- The loop of ReadCString reads up to the null byte, or to the end.
Witness: induction on the string.
-/
theorem readCharacters_spec (inside : buffer.Inside) {text stop rest value : List (BitVec 8)}
    {rounds : Nat} (there : buffer.remaining = text ++ stop ++ rest) (free : 0 ∉ text)
    (ends : Terminates stop rest) (enough : rounds = buffer.remaining.length)
    : readCharacters rounds value buffer
      = (.ok (value ++ text), buffer.advance (text ++ stop).length) := by
  have total := inside.add_length
  induction text generalizing buffer rounds value with
  | nil =>
      rcases ends with rfl | ⟨rfl, rfl⟩
      · have null : buffer.remaining = 0 :: rest := there
        rw [null, List.length_cons] at enough total
        subst enough
        have more : buffer.rpos < buffer.size := by omega
        rw [readCharacters]
        beta_reduce
        rw [if_pos more]
        refine (bind_of_ok (readByte inside null).2).trans ?_
        rw [if_pos rfl, List.append_nil]
        rfl
      · have none_ : buffer.remaining = [] := there
        rw [none_] at enough
        subst enough
        rw [List.append_nil]
        rfl
  | cons byte text ih =>
      have next : buffer.remaining = byte :: (text ++ stop ++ rest) := there
      rw [next, List.length_cons] at enough total
      subst enough
      have more : buffer.rpos < buffer.size := by omega
      have notNull : byte ≠ 0 := fun null => free (null ▸ List.mem_cons_self)
      have step : (buffer.advance 1).Inside := inside.advance (by rw [next]; simp)
      have left_ : (buffer.advance 1).remaining = text ++ stop ++ rest := by
        rw [ByteBuffer.remaining_advance, next]
        rfl
      rw [readCharacters]
      beta_reduce
      rw [if_pos more]
      refine (bind_of_ok (readByte inside next).2).trans ?_
      rw [if_neg notNull, ih step left_ (fun member => free (List.mem_cons_of_mem _ member))
        (by rw [left_]) step.add_length]
      rw [List.append_assoc, List.singleton_append, ByteBuffer.advance_advance]
      simp only [List.cons_append, List.length_cons, Nat.add_comm 1]

theorem readCString_spec (inside : buffer.Inside) {text stop rest : List (BitVec 8)}
    (there : buffer.remaining = text ++ stop ++ rest) (free : 0 ∉ text)
    (ends : Terminates stop rest)
    : readCString buffer
      = (if Utf8.isValid text then .ok text else .error .invalidValue,
          buffer.advance (text ++ stop).length) := by
  have read : readCharacters (buffer.size - buffer.rpos) [] buffer
      = (.ok ([] ++ text), buffer.advance (text ++ stop).length) :=
    readCharacters_spec inside there free ends (ByteBuffer.length_remaining buffer).symm
  refine (bind_of_ok read).trans ?_
  rw [List.nil_append]
  split <;> rfl

-- Packed guids

def marked (guidmark : BitVec 8) (places : List Nat) : Nat :=
  places.countP (fun i => guidmark.getLsbD i)

def unpack (guidmark : BitVec 8) : List Nat → List (BitVec 8) → BitVec 64 → BitVec 64
  | [], _, guid => guid
  | i :: rest, bytes, guid =>
      if guidmark.getLsbD i then
        unpack guidmark rest bytes.tail (guid ||| (bytes.headD 0).setWidth 64 <<< (i * 8))
      else unpack guidmark rest bytes guid

theorem checkRoom_of_le (inside : buffer.Inside) (some_ : 0 < buffer.remaining.length)
    : checkRoom 1 buffer = (.ok (), buffer) := by
  have total := inside.add_length
  unfold checkRoom
  rw [inside.no_wrap (by decide), if_neg (by omega)]

theorem checkRoom_of_nil (inside : buffer.Inside) (none_ : buffer.remaining = [])
    : checkRoom 1 buffer = (.error .position, buffer) := by
  have total := inside.add_length
  rw [none_, List.length_nil] at total
  unfold checkRoom
  rw [inside.no_wrap (by decide), if_pos (by omega)]

/-- The loop of readPackGUID reads the announced bytes, or all that are there. -/
theorem readMarked_spec (guidmark : BitVec 8) (places : List Nat) {guid : BitVec 64}
    (inside : buffer.Inside)
    : readMarked guidmark places guid buffer
      = if marked guidmark places ≤ buffer.remaining.length then
          (.ok (unpack guidmark places (buffer.remaining.take (marked guidmark places)) guid),
            buffer.advance (marked guidmark places))
        else (.error .position, buffer.advance buffer.remaining.length) := by
  induction places generalizing buffer guid with
  | nil =>
      have none_ : marked guidmark [] = 0 := rfl
      rw [none_, if_pos (Nat.zero_le _)]
      rfl
  | cons i places ih =>
      unfold readMarked unpack
      by_cases set_ : guidmark.getLsbD i
      · have more : marked guidmark (i :: places) = marked guidmark places + 1 :=
          List.countP_cons_of_pos set_
        rw [if_pos set_, more]
        cases there : buffer.remaining with
        | nil =>
            rw [if_neg (by simp)]
            exact bind_of_error (checkRoom_of_nil inside there)
        | cons byte rest =>
            have step : (buffer.advance 1).Inside := inside.advance (by rw [there]; simp)
            have left_ : (buffer.advance 1).remaining = rest := by
              rw [ByteBuffer.remaining_advance, there]
              rfl
            rw [bind_of_ok (checkRoom_of_le inside (by rw [there]; simp)),
              bind_of_ok (readByte inside there).1, ih step, left_, List.length_cons, if_pos set_,
              List.take_succ_cons, List.tail_cons, List.headD_cons, ByteBuffer.advance_advance,
              ByteBuffer.advance_advance, Nat.add_comm 1, Nat.add_comm 1]
            simp only [Nat.add_le_add_iff_right]
      · have same : marked guidmark (i :: places) = marked guidmark places :=
          List.countP_cons_of_neg set_
        rw [if_neg set_, same, ih inside]
        simp only [if_neg set_]

/-- readPackGUID reads the mask, and the bytes that it announces. -/
theorem readPackGUID_cons (inside : buffer.Inside) {guidmark : BitVec 8} {rest : List (BitVec 8)}
    (there : buffer.remaining = guidmark :: rest)
    : readPackGUID buffer
      = if marked guidmark (List.range 8) ≤ rest.length then
          (.ok (unpack guidmark (List.range 8) (rest.take (marked guidmark (List.range 8))) 0),
            buffer.advance (1 + marked guidmark (List.range 8)))
        else (.error .position, buffer.advance (1 + rest.length)) := by
  have step : (buffer.advance 1).Inside := inside.advance (by rw [there]; simp)
  have left_ : (buffer.advance 1).remaining = rest := by
    rw [ByteBuffer.remaining_advance, there]
    rfl
  unfold readPackGUID
  rw [bind_of_ok (checkRoom_of_le inside (by rw [there]; simp)), bind_of_ok (readByte inside there).1,
    readMarked_spec guidmark _ step, left_, ByteBuffer.advance_advance, ByteBuffer.advance_advance]

theorem readPackGUID_nil (inside : buffer.Inside) (none_ : buffer.remaining = [])
    : readPackGUID buffer = (.error .position, buffer) :=
  bind_of_error (checkRoom_of_nil inside none_)

-- Every read

/-- The bytes that a read has to find. A string ends where the buffer does. -/
def needed : FieldType → List (BitVec 8) → Nat
  | .number type, _ => type.size
  | .bool, _ => 1
  | .string, _ => 0
  | .packedGuid, [] => 1
  | .packedGuid, guidmark :: _ => 1 + marked guidmark (List.range 8)

def Means : (type : FieldType) → (bytes rest : List (BitVec 8)) → type.Value → Prop
  | .number type, bytes, _, value =>
      bytes.length = type.size ∧ value = LittleEndian.ofBytes bytes ∧ type.IsFinite value
  | .bool, bytes, _, value => ∃ byte : BitVec 8, bytes = [byte] ∧ value = decide (byte.toInt > 0)
  | .string, bytes, rest, value =>
      0 ∉ value ∧ Utf8.isValid value = true ∧ ∃ stop, bytes = value ++ stop ∧ Terminates stop rest
  | .packedGuid, bytes, _, value =>
      ∃ guidmark own, bytes = guidmark :: own ∧ own.length = marked guidmark (List.range 8)
        ∧ value = unpack guidmark (List.range 8) own 0

/-- What is there is no value: a number that is not finite, or a string that is no valid text. -/
def Refused : FieldType → List (BitVec 8) → Prop
  | .number type, remaining =>
      ∃ bytes rest, remaining = bytes ++ rest ∧ bytes.length = type.size
        ∧ ¬ type.IsFinite (LittleEndian.ofBytes bytes)
  | .string, remaining =>
      ∃ text stop rest, remaining = text ++ stop ++ rest ∧ 0 ∉ text ∧ Terminates stop rest
        ∧ Utf8.isValid text = false
  | _, _ => False

/-- A typed read stays in the buffer. It throws a position exception if and only if it would go past
the end; what it returns is the meaning of the bytes that it consumes.
-/
structure FieldLaw (buffer : ByteBuffer) (type : FieldType) : Prop where
  storage : (readField type buffer).2.storage = buffer.storage
  inside : (readField type buffer).2.Inside
  thrown
    : (readField type buffer).1 = .error .position
      ↔ buffer.remaining.length < needed type buffer.remaining
  invalid : (readField type buffer).1 = .error .invalidValue → Refused type buffer.remaining
  returned
    : ∀ value, (readField type buffer).1 = .ok value →
        ∃ bytes rest, buffer.remaining = bytes ++ rest
          ∧ (readField type buffer).2.rpos = buffer.rpos + bytes.length
          ∧ Means type bytes rest value

section Outcomes

variable {type : FieldType} (inside : buffer.Inside)

include inside

theorem FieldLaw.of_ok {value : type.Value} {bytes rest : List (BitVec 8)}
    (read : readField type buffer = (.ok value, buffer.advance bytes.length))
    (there : buffer.remaining = bytes ++ rest) (means : Means type bytes rest value)
    (enough : needed type buffer.remaining ≤ buffer.remaining.length)
    : FieldLaw buffer type := by
  have few : bytes.length ≤ buffer.remaining.length := by
    rw [there, List.length_append]
    exact Nat.le_add_right _ _
  refine ⟨?_, ?_, ?_, ?_, ?_⟩ <;> rw [read]
  · rfl
  · exact inside.advance few
  · exact iff_of_false (by simp) (Nat.not_lt.mpr enough)
  · exact fun fault => by cases fault
  · rintro _ ⟨⟩
    exact ⟨bytes, rest, there, rfl, means⟩

theorem FieldLaw.of_position {count : Nat}
    (read : readField type buffer = (.error .position, buffer.advance count))
    (few : count ≤ buffer.remaining.length)
    (short : buffer.remaining.length < needed type buffer.remaining)
    : FieldLaw buffer type := by
  refine ⟨?_, ?_, ?_, ?_, ?_⟩ <;> rw [read]
  · rfl
  · exact inside.advance few
  · exact iff_of_true rfl short
  · exact fun fault => by cases fault
  · exact fun value fault => by cases fault

theorem FieldLaw.of_invalid {count : Nat}
    (read : readField type buffer = (.error .invalidValue, buffer.advance count))
    (few : count ≤ buffer.remaining.length) (refused : Refused type buffer.remaining)
    (enough : needed type buffer.remaining ≤ buffer.remaining.length)
    : FieldLaw buffer type := by
  refine ⟨?_, ?_, ?_, ?_, ?_⟩ <;> rw [read]
  · rfl
  · exact inside.advance few
  · exact iff_of_false (by simp) (Nat.not_lt.mpr enough)
  · exact fun _ => refused
  · exact fun value fault => by cases fault

theorem fieldLaw_number (type : NumberType) : FieldLaw buffer (.number type) := by
  by_cases enough : type.size ≤ buffer.remaining.length
  · have there : buffer.remaining
        = buffer.remaining.take type.size ++ buffer.remaining.drop type.size :=
      (List.take_append_drop _ _).symm
    have length : (buffer.remaining.take type.size).length = type.size :=
      List.length_take_of_le enough
    generalize buffer.remaining.take type.size = bytes at there length
    have own : buffer.remaining.take type.size = bytes := by
      rw [there, ← length, List.take_left]
    have number := readNumber_of_le inside enough
    rw [own] at number
    have read : readField (.number type) buffer
        = (if type.IsFinite (LittleEndian.ofBytes bytes) then .ok (LittleEndian.ofBytes bytes)
            else .error .invalidValue, buffer.advance type.size) := by
      refine (bind_of_ok number).trans ?_
      split <;> rfl
    by_cases finite : type.IsFinite (LittleEndian.ofBytes bytes)
    · have moved : buffer.advance type.size = buffer.advance bytes.length := by rw [length]
      rw [if_pos finite, moved] at read
      exact FieldLaw.of_ok inside read there ⟨length, rfl, finite⟩ enough
    · rw [if_neg finite] at read
      exact FieldLaw.of_invalid inside read enough ⟨_, _, there, length, finite⟩ enough
  · have short := Nat.not_le.mp enough
    have read : readField (.number type) buffer = (.error .position, buffer.advance 0) :=
      bind_of_error (readNumber_of_lt inside short)
    exact FieldLaw.of_position inside read (Nat.zero_le _) short

theorem fieldLaw_bool : FieldLaw buffer .bool := by
  cases there : buffer.remaining with
  | nil =>
      have short : buffer.remaining.length < 1 := by
        rw [there]
        exact Nat.zero_lt_one
      have read : readField .bool buffer = (.error .position, buffer.advance 0) :=
        bind_of_error (@readNumber_of_lt buffer inside .int8 short)
      exact FieldLaw.of_position inside read (Nat.zero_le _) short
  | cons byte rest =>
      have read : readField .bool buffer
          = (.ok (decide (byte.toInt > 0)), buffer.advance [byte].length) :=
        bind_of_ok (readByte inside there).2
      refine FieldLaw.of_ok inside read there ⟨byte, rfl, rfl⟩ ?_
      rw [there]
      exact Nat.le_add_left _ _

theorem fieldLaw_string : FieldLaw buffer .string := by
  obtain ⟨text, stop, rest, there, free, ends⟩ := exists_text buffer.remaining
  have read := readCString_spec inside there free ends
  by_cases valid : Utf8.isValid text = true
  · rw [if_pos valid] at read
    exact FieldLaw.of_ok inside read there ⟨free, valid, stop, rfl, ends⟩ (Nat.zero_le _)
  · rw [if_neg valid] at read
    refine FieldLaw.of_invalid inside read ?_
      ⟨text, stop, rest, there, free, ends, Bool.not_eq_true _ ▸ valid⟩ (Nat.zero_le _)
    rw [there]
    exact (List.prefix_append _ _).length_le

theorem fieldLaw_packedGuid : FieldLaw buffer .packedGuid := by
  cases there : buffer.remaining with
  | nil =>
      have read : readField .packedGuid buffer = (.error .position, buffer.advance 0) :=
        readPackGUID_nil inside there
      refine FieldLaw.of_position inside read (Nat.zero_le _) ?_
      rw [there]
      exact Nat.zero_lt_one
  | cons guidmark rest =>
      have read : readField .packedGuid buffer = _ := readPackGUID_cons inside there
      by_cases enough : marked guidmark (List.range 8) ≤ rest.length
      · have length := List.length_take_of_le enough
        have count : 1 + marked guidmark (List.range 8)
            = (guidmark :: rest.take (marked guidmark (List.range 8))).length := by
          rw [List.length_cons, length, Nat.add_comm]
        have split_ : buffer.remaining
            = (guidmark :: rest.take (marked guidmark (List.range 8)))
              ++ rest.drop (marked guidmark (List.range 8)) := by
          rw [there, List.cons_append, List.take_append_drop]
        rw [if_pos enough, count] at read
        refine FieldLaw.of_ok inside read split_ ⟨guidmark, _, rfl, length, rfl⟩ ?_
        rw [there, List.length_cons, needed]
        omega
      · rw [if_neg enough] at read
        refine FieldLaw.of_position inside read ?_ ?_
        · rw [there, List.length_cons, Nat.add_comm]
        · rw [there, List.length_cons, needed]
          omega

theorem fieldLaw (type : FieldType) : FieldLaw buffer type := by
  cases type with
  | number type => exact fieldLaw_number inside type
  | bool => exact fieldLaw_bool inside
  | string => exact fieldLaw_string inside
  | packedGuid => exact fieldLaw_packedGuid inside

end Outcomes

/-- A read of raw bytes stays in the buffer. Where the sum of position and count does not wrap, it
throws if and only if it would go past the end.
-/
structure BytesLaw (buffer : ByteBuffer) (count : BitVec 64) : Prop where
  storage : (readBytes count.toNat buffer).2.storage = buffer.storage
  inside : (readBytes count.toNat buffer).2.Inside
  thrown
    : buffer.rpos + count.toNat < 2 ^ 64 →
        ((readBytes count.toNat buffer).1 = .error .position
          ↔ buffer.remaining.length < count.toNat)
  returned
    : buffer.rpos + count.toNat < 2 ^ 64 →
        ∀ bytes, (readBytes count.toNat buffer).1 = .ok bytes →
          bytes.length = count.toNat ∧ bytes <+: buffer.remaining
          ∧ (readBytes count.toNat buffer).2.rpos = buffer.rpos + bytes.length

theorem bytesLaw (inside : buffer.Inside) (count : BitVec 64) : BytesLaw buffer count := by
  have total := inside.add_length
  by_cases past : (buffer.rpos + count.toNat) % 2 ^ 64 > buffer.size
  · have read : readBytes count.toNat buffer = (.error .position, buffer) := by
      unfold readBytes
      rw [if_pos past]
    refine ⟨?_, ?_, ?_, ?_⟩ <;> rw [read]
    · exact inside
    · intro small
      rw [Nat.mod_eq_of_lt small] at past
      exact iff_of_true rfl (by omega)
    · exact fun _ value fault => by cases fault
  · have read : readBytes count.toNat buffer
        = (.ok (buffer.remaining.take count.toNat),
            { buffer with rpos := (buffer.rpos + count.toNat) % 2 ^ 64 }) := by
      unfold readBytes
      rw [if_neg past]
      rfl
    refine ⟨?_, ?_, ?_, ?_⟩ <;> rw [read]
    · exact Nat.not_lt.mp past
    · intro small
      rw [Nat.mod_eq_of_lt small] at past
      exact iff_of_false (by simp) (by omega)
    · rintro small _ ⟨⟩
      rw [Nat.mod_eq_of_lt small] at past
      have length : (buffer.remaining.take count.toNat).length = count.toNat :=
        List.length_take_of_le (by omega)
      refine ⟨length, List.take_prefix _ _, ?_⟩
      rw [length]
      exact Nat.mod_eq_of_lt small

end Reader

namespace ByteBuffer

theorem Inside.step {buffer : ByteBuffer} (inside : buffer.Inside) (call : ReadCall)
    : (buffer.step call).Inside := by
  cases call with
  | field type => exact (Reader.fieldLaw inside type).inside
  | bytes count => exact (Reader.bytesLaw inside count).inside

end ByteBuffer

end WarheadCore.Packets
