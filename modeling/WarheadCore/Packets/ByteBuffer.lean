import WarheadCore.Foundation.LittleEndian
import WarheadCore.Packets.Utf8

/-! The buffer of a packet, with one position for reading and one for writing.
Sizes are 64-bit, so sums of positions wrap; a vector holds fewer than 2^63 bytes.
-/

namespace WarheadCore.Packets

open Foundation

structure ByteBuffer where
  rpos : Nat := 0
  wpos : Nat := 0
  storage : List (BitVec 8) := []
  bounded : storage.length < 2 ^ 63 := by decide

/-- ByteBufferPositionException and ByteBufferInvalidValueException. -/
inductive ByteBufferException where
  | position
  | invalidValue
  deriving DecidableEq

/-- The types that are copied as they are. -/
inductive NumberType where
  | uint8
  | uint16
  | uint32
  | uint64
  | int8
  | int16
  | int32
  | int64
  | float
  | double

namespace NumberType

def size : NumberType → Nat
  | uint8 | int8 => 1
  | uint16 | int16 => 2
  | uint32 | int32 | float => 4
  | uint64 | int64 | double => 8

/-- A number as its bits, which are in two's complement where it is signed. -/
abbrev Value (type : NumberType) : Type := BitVec (8 * type.size)

def IsFinite : (type : NumberType) → type.Value → Prop
  | float, value => value.extractLsb' 23 8 ≠ 0xff
  | double, value => value.extractLsb' 52 11 ≠ 0x7ff
  | _, _ => True

instance (type : NumberType) (value : type.Value) : Decidable (type.IsFinite value) := by
  cases type <;> unfold IsFinite <;> infer_instance

end NumberType

/-- The types of the operators, and the guids that are packed. -/
inductive FieldType where
  | number (type : NumberType)
  | bool
  | string
  | packedGuid

abbrev FieldType.Value : FieldType → Type
  | number type => type.Value
  | bool => Bool
  | string => List (BitVec 8)
  | packedGuid => BitVec 64

namespace ByteBuffer

def size (buffer : ByteBuffer) : Nat := buffer.storage.length

-- Append

/-- The storage after a resize for `cnt` bytes at the write position. -/
def resized (buffer : ByteBuffer) (newSize : Nat) : List (BitVec 8) :=
  buffer.storage ++ List.replicate (newSize - buffer.storage.length) 0

theorem resized_bounded (buffer : ByteBuffer) {src : List (BitVec 8)}
    (fits : buffer.wpos + src.length < 2 ^ 63)
    : ((buffer.resized (buffer.wpos + src.length)).take buffer.wpos
        ++ src ++ (buffer.resized (buffer.wpos + src.length)).drop (buffer.wpos + src.length)).length
      < 2 ^ 63 := by
  have bounded := buffer.bounded
  unfold resized
  simp only [List.length_append, List.length_take, List.length_drop, List.length_replicate]
  omega

/-- append of so many bytes. It fails where an ASSERT does, or where the vector cannot grow. -/
def append (buffer : ByteBuffer) (src : List (BitVec 8)) : Option ByteBuffer :=
  let newSize := buffer.wpos + src.length
  if src.length = 0 then none
  else if ¬ buffer.size < 10000000 then none
  else if fits : buffer.wpos + src.length < 2 ^ 63 then
    some
      { buffer with
        wpos := newSize
        storage := (buffer.resized newSize).take buffer.wpos ++ src
          ++ (buffer.resized newSize).drop newSize
        bounded := buffer.resized_bounded fits }
  else none

def appendNumber (buffer : ByteBuffer) (type : NumberType) (value : type.Value)
    : Option ByteBuffer :=
  buffer.append (LittleEndian.toBytes type.size value)

/-- The loop of appendPackGUID: the mask and the bytes that are not zero. -/
def packLoop : List Nat → (guid : BitVec 64) → (mask : BitVec 8) → List (BitVec 8)
    → Option (BitVec 8 × List (BitVec 8))
  | [], guid, mask, packGUID => if guid ≠ 0 then none else some (mask, packGUID)
  | i :: rest, guid, mask, packGUID =>
      if guid ≠ 0 then
        if guid &&& 0xFF ≠ 0 then
          packLoop rest (guid >>> 8) (mask ||| 1#8 <<< i)
            (packGUID ++ [(guid &&& 0xFF).setWidth 8])
        else packLoop rest (guid >>> 8) mask packGUID
      else some (mask, packGUID)

/-- The array has room for eight rounds; another one would be no result. -/
def appendPackGUID (buffer : ByteBuffer) (guid : BitVec 64) : Option ByteBuffer := do
  let (mask, packGUID) ← packLoop (List.range 8) guid 0 []
  buffer.append (mask :: packGUID)

end ByteBuffer

-- Read

def Reader (α : Type) : Type := ByteBuffer → Except ByteBufferException α × ByteBuffer

namespace Reader

variable {α β : Type}

def pure (value : α) : Reader α := fun buffer => (.ok value, buffer)

def throw (fault : ByteBufferException) : Reader α := fun buffer => (.error fault, buffer)

def bind (first : Reader α) (next : α → Reader β) : Reader β := fun buffer =>
  match first buffer with
  | (.ok value, after) => next value after
  | (.error fault, after) => (.error fault, after)

instance : Monad Reader where
  pure := pure
  bind := bind

def checkRoom (count : Nat) : Reader Unit := fun buffer =>
  if (buffer.rpos + count) % 2 ^ 64 > buffer.size then (.error .position, buffer)
  else (.ok (), buffer)

/-- read of so many bytes; read_skip is the same, without the bytes. -/
def readBytes (count : Nat) : Reader (List (BitVec 8)) := fun buffer =>
  if (buffer.rpos + count) % 2 ^ 64 > buffer.size then (.error .position, buffer)
  else
    (.ok ((buffer.storage.drop buffer.rpos).take count),
      { buffer with rpos := (buffer.rpos + count) % 2 ^ 64 })

def readNumber (type : NumberType) : Reader type.Value := do
  let bytes ← readBytes type.size
  return LittleEndian.ofBytes bytes

def readChar : Reader (BitVec 8) := readNumber .int8

def readUint8 : Reader (BitVec 8) := readNumber .uint8

def readFinite (type : NumberType) : Reader type.Value := do
  let value ← readNumber type
  if type.IsFinite value then return value else throw .invalidValue

def readBool : Reader Bool := do
  let value ← readChar
  return decide (value.toInt > 0)

/-- The loop of ReadCString, for at most so many rounds as there are bytes left. -/
def readCharacters : (rounds : Nat) → (value : List (BitVec 8)) → Reader (List (BitVec 8))
  | 0, value => pure value
  | rounds + 1, value => fun buffer =>
      if buffer.rpos < buffer.size then
        bind readChar (fun c =>
          if c = 0 then pure value else readCharacters rounds (value ++ [c])) buffer
      else (.ok value, buffer)

def readCString : Reader (List (BitVec 8)) := fun buffer =>
  bind (readCharacters (buffer.size - buffer.rpos) []) (fun value =>
    if Utf8.isValid value then pure value else throw .invalidValue) buffer

def readMarked (guidmark : BitVec 8) : List Nat → (guid : BitVec 64) → Reader (BitVec 64)
  | [], guid => return guid
  | i :: rest, guid =>
      if guidmark.getLsbD i then do
        checkRoom 1
        let bit ← readUint8
        readMarked guidmark rest (guid ||| bit.setWidth 64 <<< (i * 8))
      else readMarked guidmark rest guid

def readPackGUID : Reader (BitVec 64) := do
  checkRoom 1
  let guidmark ← readUint8
  readMarked guidmark (List.range 8) 0

def readField : (type : FieldType) → Reader type.Value
  | .number type => readFinite type
  | .bool => readBool
  | .string => readCString
  | .packedGuid => readPackGUID

end Reader

/-- A read of the handler of a packet. -/
inductive ReadCall where
  | field (type : FieldType)
  | bytes (count : BitVec 64)

def ByteBuffer.step (buffer : ByteBuffer) : ReadCall → ByteBuffer
  | .field type => (Reader.readField type buffer).2
  | .bytes count => (Reader.readBytes count.toNat buffer).2

end WarheadCore.Packets
