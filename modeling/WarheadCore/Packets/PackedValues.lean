import Mathlib.Tactic.IntervalCases
import WarheadCore.Foundation.CalendarTime
import WarheadCore.Foundation.MachineIntegers
import WarheadCore.Packets.BufferRoundTrip

/-! Guids and times as packets have them.
A packed guid is read back from the bytes that were appended for it, wherever the buffer is
written; what is read of other bytes takes as many of them as the mask has bits. A time is one
word; the year has eight bits of the word, and five of them are read.
-/

namespace WarheadCore.Packets

namespace ByteBuffer

variable {buffer after : ByteBuffer}

def popcount (guidmark : BitVec 8) : Nat := Reader.marked guidmark (List.range 8)

theorem popcount_le (guidmark : BitVec 8) : popcount guidmark ≤ 8 :=
  List.countP_le_length

def readFrom (buffer : ByteBuffer) (rpos : Nat) : ByteBuffer := { buffer with rpos }

/-- From the old write position on, a buffer holds the bytes that were appended. -/
theorem remaining_of_append {src : List (BitVec 8)} (done : buffer.append src = some after)
    : after.wpos = buffer.wpos + src.length ∧ (after.readFrom buffer.wpos).Inside
      ∧ ∃ later, (after.readFrom buffer.wpos).remaining = src ++ later := by
  have wide : buffer.wpos ≤ (buffer.resized (buffer.wpos + src.length)).length := by
    unfold resized
    rw [List.length_append, List.length_replicate]
    omega
  unfold append at done
  dsimp only at done
  split at done
  · cases done
  · split at done
    · cases done
    · split at done
      · obtain rfl := Option.some.inj done
        have front : ((buffer.resized (buffer.wpos + src.length)).take buffer.wpos).length
            = buffer.wpos := List.length_take_of_le wide
        have there (back : List (BitVec 8))
            : ((buffer.resized (buffer.wpos + src.length)).take buffer.wpos ++ src ++ back).drop
                buffer.wpos
              = src ++ back := by
          rw [List.append_assoc, List.drop_left' front]
        have inside (back : List (BitVec 8))
            : buffer.wpos
              ≤ ((buffer.resized (buffer.wpos + src.length)).take buffer.wpos ++ src ++ back).length
            := by
          rw [List.append_assoc, List.length_append, front]
          exact Nat.le_add_right _ _
        exact ⟨rfl, inside _, _, there _⟩
      · cases done

/-- What appendPackGUID appends: a mask and as many bytes as it has bits. -/
theorem appendPackGUID_eq (buffer : ByteBuffer) (guid : BitVec 64)
    : ∃ guidmark own, buffer.appendPackGUID guid = buffer.append (guidmark :: own)
        ∧ own.length = popcount guidmark
        ∧ Reader.unpack guidmark (List.range 8) own 0 = guid := by
  obtain ⟨guidmark, own, packed, length, unpacked⟩ := exists_packed guid
  refine ⟨guidmark, own, ?_, length, unpacked⟩
  unfold appendPackGUID
  rw [packed]
  rfl

/-- What readPackGUID does with the bytes of a buffer: a value and as many bytes as the mask
announces, itself included, or an exception if they are not there.
-/
theorem readPackGUID_outcome (inside : buffer.Inside)
    : (∃ guidmark rest guid, buffer.remaining = guidmark :: rest
          ∧ popcount guidmark ≤ rest.length
          ∧ Reader.readPackGUID buffer = (.ok guid, buffer.advance (1 + popcount guidmark)))
      ∨ (∃ after, Reader.readPackGUID buffer = (.error .position, after))
        ∧ ∀ guidmark rest, buffer.remaining = guidmark :: rest → rest.length < popcount guidmark := by
  cases there : buffer.remaining with
  | nil =>
      refine .inr ⟨⟨buffer, Reader.readPackGUID_nil inside there⟩, fun guidmark rest same => ?_⟩
      cases same
  | cons guidmark rest =>
      have read := Reader.readPackGUID_cons inside there
      by_cases enough : popcount guidmark ≤ rest.length
      · exact .inl ⟨guidmark, rest, _, rfl, enough, read.trans (if_pos enough)⟩
      · refine .inr ⟨⟨_, read.trans (if_neg enough)⟩, ?_⟩
        rintro _ _ ⟨⟩
        exact Nat.not_le.mp enough

/-- Every packed guid is read back and takes the bytes that were written for it, one to nine; a
buffer below ten million bytes has room for it. Of any bytes, readPackGUID takes the mask and one for
each of its bits and returns, or it throws, which it does only if they are not all there.
-/
theorem packed_guids_come_back
    : (∀ buffer guid after, ByteBuffer.appendPackGUID buffer guid = some after →
          Reader.readPackGUID (after.readFrom buffer.wpos)
            = (.ok guid, after.readFrom after.wpos)
          ∧ buffer.wpos + 1 ≤ after.wpos ∧ after.wpos ≤ buffer.wpos + 9)
      ∧ (∀ (buffer : ByteBuffer) guid, buffer.size < 10000000 → buffer.wpos ≤ buffer.size →
          (buffer.appendPackGUID guid).isSome)
      ∧ ∀ buffer : ByteBuffer, buffer.Inside →
          (∃ guidmark rest guid, buffer.remaining = guidmark :: rest
              ∧ popcount guidmark ≤ rest.length
              ∧ Reader.readPackGUID buffer = (.ok guid, buffer.advance (1 + popcount guidmark)))
            ∨ (∃ after, Reader.readPackGUID buffer = (.error .position, after))
              ∧ ∀ guidmark rest, buffer.remaining = guidmark :: rest →
                  rest.length < popcount guidmark := by
  refine ⟨fun buffer guid after done => ?_, fun buffer guid small written => ?_,
    fun buffer inside => readPackGUID_outcome inside⟩
  · obtain ⟨guidmark, own, same, length, unpacked⟩ := appendPackGUID_eq buffer guid
    rw [same] at done
    obtain ⟨wpos, inside, later, there⟩ := remaining_of_append done
    have few := popcount_le guidmark
    rw [List.length_cons, length] at wpos
    refine ⟨?_, by omega, by omega⟩
    have enough : popcount guidmark ≤ (own ++ later).length := by
      rw [List.length_append, length]
      exact Nat.le_add_right _ _
    refine (Reader.readPackGUID_cons inside there).trans ((if_pos enough).trans ?_)
    have first : (own ++ later).take (popcount guidmark) = own := List.take_left' length
    have moved : (after.readFrom buffer.wpos).advance (1 + popcount guidmark)
        = after.readFrom after.wpos := by
      unfold advance readFrom
      rw [wpos, Nat.add_comm 1]
    change (Except.ok (Reader.unpack guidmark _ ((own ++ later).take (popcount guidmark)) 0), _) = _
    rw [first, unpacked]
    exact congrArg _ moved
  · obtain ⟨guidmark, own, same, length, -⟩ := appendPackGUID_eq buffer guid
    have few := popcount_le guidmark
    rw [same]
    unfold append
    dsimp only
    rw [if_neg (by simp), if_neg (by omega), dif_pos (by rw [List.length_cons]; omega)]
    rfl

/-- The guid of a creature, whose bytes are zero in the middle, behind three other bytes; and a mask
that announces more than is there.
-/
theorem packed_guids_come_back_applied
    : (∃ after, ByteBuffer.appendPackGUID ⟨0, 3, [1, 2, 3], by decide⟩ 0xF130000000000001#64
          = some after
        ∧ Reader.readPackGUID (after.readFrom 3)
          = (.ok 0xF130000000000001#64, after.readFrom after.wpos))
      ∧ ∃ after, Reader.readPackGUID ⟨0, 0, [0x81, 7], by decide⟩ = (.error .position, after) := by
  constructor
  · obtain ⟨after, done⟩ := Option.isSome_iff_exists.mp
      (packed_guids_come_back.2.1 ⟨0, 3, [1, 2, 3], by decide⟩ 0xF130000000000001#64
        (by decide) (by decide))
    exact ⟨after, done, (packed_guids_come_back.1 _ _ after done).1⟩
  · rcases packed_guids_come_back.2.2 ⟨0, 0, [0x81, 7], by decide⟩ (Nat.zero_le _)
      with ⟨guidmark, rest, guid, there, enough, -⟩ | ⟨thrown, -⟩
    · obtain ⟨rfl, rfl⟩ := List.cons.inj there
      exact absurd enough (by decide)
    · exact thrown

end ByteBuffer

-- Times

open Foundation

def timeBreakdown (calendar : LocalTime) (now time : Int) : Tm :=
  calendar.localtime (if time = 0 then now else time)

/-- The word of a broken-down time; what does not fit into the upper eight bits is shifted out. -/
def packTime (lt : Tm) : BitVec 32 :=
  BitVec.ofInt 32 (lt.year - 100) <<< 24 ||| BitVec.ofInt 32 lt.mon <<< 20
    ||| BitVec.ofInt 32 (lt.mday - 1) <<< 14 ||| BitVec.ofInt 32 lt.wday <<< 11
    ||| BitVec.ofInt 32 lt.hour <<< 6 ||| BitVec.ofInt 32 lt.min

def unpackTime (packedDate : BitVec 32) : Tm where
  min := (packedDate &&& 0x3F).toNat
  hour := (packedDate >>> 6 &&& 0x1F).toNat
  mday := (packedDate >>> 14 &&& 0x3F).toNat + 1
  mon := (packedDate >>> 20 &&& 0xF).toNat
  year := (packedDate >>> 24 &&& 0x1F).toNat + 100

def ByteBuffer.appendPackedTime (buffer : ByteBuffer) (calendar : LocalTime) (now time : Int)
    : Option ByteBuffer :=
  buffer.appendNumber .uint32 (packTime (timeBreakdown calendar now time))

def Reader.readPackedTime (calendar : LocalTime) : Reader Nat := do
  let packedDate ← Reader.readNumber .uint32
  return toUInt32 (calendar.mktime (unpackTime packedDate))

-- Fields of the word

/-- Each mask and shift of the word reads its own field, but the one of the year only five bits.
Witness: bit by bit.
-/
theorem fields_of_word (year : BitVec 32) (mon : BitVec 4) (mday : BitVec 6) (wday : BitVec 3)
    (hour : BitVec 5) (min : BitVec 6)
    : let word := year <<< 24 ||| mon.setWidth 32 <<< 20 ||| mday.setWidth 32 <<< 14
        ||| wday.setWidth 32 <<< 11 ||| hour.setWidth 32 <<< 6 ||| min.setWidth 32
      word &&& 0x3F = min.setWidth 32 ∧ word >>> 6 &&& 0x1F = hour.setWidth 32
        ∧ word >>> 14 &&& 0x3F = mday.setWidth 32 ∧ word >>> 20 &&& 0xF = mon.setWidth 32
        ∧ word >>> 24 &&& 0x1F = year &&& 0x1F := by
  dsimp only
  refine ⟨?_, ?_, ?_, ?_, ?_⟩ <;> refine BitVec.eq_of_getLsbD_eq (fun i inside => ?_) <;>
    simp only [BitVec.getLsbD_and, BitVec.getLsbD_or, BitVec.getLsbD_shiftLeft,
      BitVec.getLsbD_ushiftRight, BitVec.getLsbD_setWidth] <;>
    interval_cases i <;> simp

/-- A small number is a narrow word, widened. -/
theorem ofInt_eq_setWidth {width : Nat} {value : Int} (narrow : width ≤ 32) (low : 0 ≤ value)
    (high : value < 2 ^ width)
    : BitVec.ofInt 32 value = (BitVec.ofNat width value.toNat).setWidth 32
      ∧ (((BitVec.ofNat width value.toNat).setWidth 32).toNat : Int) = value := by
  obtain ⟨natural, rfl⟩ := Int.eq_ofNat_of_zero_le low
  have small : natural < 2 ^ width := by exact_mod_cast high
  have fits : natural < 2 ^ 32 := small.trans_le (Nat.pow_le_pow_right (by decide) narrow)
  have widened : ((BitVec.ofNat width natural).setWidth 32).toNat = natural := by
    rw [BitVec.toNat_setWidth, BitVec.toNat_ofNat, Nat.mod_eq_of_lt small, Nat.mod_eq_of_lt fits]
  have whole : (BitVec.ofInt 32 (natural : Int)).toNat = natural := by
    rw [BitVec.ofInt_natCast, BitVec.toNat_ofNat, Nat.mod_eq_of_lt fits]
  exact ⟨BitVec.eq_of_toNat_eq (whole.trans widened.symm), congrArg _ widened⟩

theorem toNat_ofInt_and (value : Int)
    : ((BitVec.ofInt 32 value &&& 0x1F).toNat : Int) = value % 32 := by
  have mask : (0x1F : BitVec 32).toNat = 2 ^ 5 - 1 := rfl
  have wrapped : ((BitVec.ofInt 32 value).toNat : Int) = value % 4294967296 := by
    rw [BitVec.toNat_ofInt]
    omega
  rw [BitVec.toNat_and, mask, Nat.and_two_pow_sub_one_eq_mod]
  omega

/-- What is read of the word of a time. -/
theorem unpackTime_packTime {lt : Tm} (valid : lt.Valid)
    : unpackTime (packTime lt)
      = { lt with sec := 0, year := (lt.year - 100) % 32 + 100, wday := 0 } := by
  obtain ⟨-, min, hour, mday, mon, wday⟩ := valid
  have minIs := ofInt_eq_setWidth (by decide : 6 ≤ 32) min.1 (by omega)
  have hourIs := ofInt_eq_setWidth (by decide : 5 ≤ 32) hour.1 (by omega)
  have mdayIs := ofInt_eq_setWidth (by decide : 6 ≤ 32)
    (by omega : 0 ≤ lt.mday - 1) (by omega)
  have monIs := ofInt_eq_setWidth (by decide : 4 ≤ 32) mon.1 (by omega)
  have wdayIs := ofInt_eq_setWidth (by decide : 3 ≤ 32) wday.1 (by omega)
  have fields := fields_of_word (BitVec.ofInt 32 (lt.year - 100)) (BitVec.ofNat 4 lt.mon.toNat)
    (BitVec.ofNat 6 (lt.mday - 1).toNat) (BitVec.ofNat 3 lt.wday.toNat)
    (BitVec.ofNat 5 lt.hour.toNat) (BitVec.ofNat 6 lt.min.toNat)
  rw [← minIs.1, ← hourIs.1, ← mdayIs.1, ← monIs.1, ← wdayIs.1] at fields
  obtain ⟨ownMin, ownHour, ownMday, ownMon, ownYear⟩ := fields
  unfold unpackTime packTime
  rw [ownMin, ownHour, ownMday, ownMon, ownYear, toNat_ofInt_and, minIs.1, hourIs.1, mdayIs.1,
    monIs.1, minIs.2, hourIs.2, mdayIs.2, monIs.2]
  congr 1
  omega

-- The round trip

/-- A number is read back from where it was appended. -/
theorem readNumber_of_append {type : NumberType} {value : type.Value} {buffer after : ByteBuffer}
    (done : buffer.appendNumber type value = some after)
    : (Reader.readNumber type (after.readFrom buffer.wpos)).1 = .ok value := by
  obtain ⟨-, inside, later, there⟩ := ByteBuffer.remaining_of_append done
  have length := LittleEndian.length_toBytes type.size value
  have enough : type.size ≤ (after.readFrom buffer.wpos).remaining.length := by
    rw [there, List.length_append, length]
    exact Nat.le_add_right _ _
  have own : (after.readFrom buffer.wpos).remaining.take type.size
      = LittleEndian.toBytes type.size value := by
    rw [there]
    exact List.take_left' length
  rw [Reader.readNumber_of_le inside enough, own, LittleEndian.ofBytes_toBytes le_rfl]

/-- What readPackedTime returns for an appended time. -/
theorem readPackedTime_of_append {calendar : LocalTime} {now time : Int}
    {buffer after : ByteBuffer} (done : buffer.appendPackedTime calendar now time = some after)
    : (Reader.readPackedTime calendar (after.readFrom buffer.wpos)).1
      = .ok (toUInt32 (calendar.mktime
          (unpackTime (packTime (timeBreakdown calendar now time))))) := by
  have number := readNumber_of_append done
  cases read : Reader.readNumber .uint32 (after.readFrom buffer.wpos) with
  | mk outcome moved =>
      rw [read] at number
      obtain rfl : outcome = .ok (packTime (timeBreakdown calendar now time)) := number
      exact congrArg Prod.fst (Reader.bind_of_ok read)

/-- A time from the year 2000 on is after the epoch. -/
theorem positive_of_year {calendar : LocalTime} {time : Int}
    (from2000 : 100 ≤ (calendar.localtime time).year)
    : 0 < time := by
  have valid := calendar.valid time
  have inverse := calendar.inverse time
  by_cases soon : (calendar.localtime time).year < 206
  · have range := (calendar.range _ valid (by omega) soon).1
    omega
  · have earlier := valid.minute 100
    have low := (calendar.range _ earlier (by dsimp only; omega) (by dsimp only; omega)).1
    have later := calendar.later _ _ earlier (valid.minute (calendar.localtime time).year) rfl rfl
      (by dsimp only; omega)
    rw [calendar.seconds, inverse] at later
    have second := valid.sec.1
    omega

/-- A time from the year 2000 on comes back, truncated to its minute, if and only if it is before the
year 2032.
-/
theorem packed_time_comes_back_iff (calendar : LocalTime) (now time : Int)
    (from2000 : 100 ≤ (calendar.localtime time).year) (buffer after : ByteBuffer)
    (done : buffer.appendPackedTime calendar now time = some after)
    : (∃ value : Nat, (Reader.readPackedTime calendar (after.readFrom buffer.wpos)).1 = .ok value
          ∧ (value : Int) = time - (calendar.localtime time).sec)
      ↔ (calendar.localtime time).year < 132 := by
  have valid := calendar.valid time
  have inverse := calendar.inverse time
  have broken : timeBreakdown calendar now time = calendar.localtime time := by
    unfold timeBreakdown
    rw [if_neg (positive_of_year from2000).ne']
  have read := readPackedTime_of_append done
  rw [broken, unpackTime_packTime valid] at read
  generalize unpacked : ({ calendar.localtime time with
    sec := 0, year := ((calendar.localtime time).year - 100) % 32 + 100, wday := 0 } : Tm) = lt
    at read
  have readValid : lt.Valid := by
    subst unpacked
    exact {
      valid.minute (((calendar.localtime time).year - 100) % 32 + 100) with
      wday := (by decide : (0 : Int) ≤ 0 ∧ (0 : Int) < 7) }
  have year : lt.year = ((calendar.localtime time).year - 100) % 32 + 100 := by rw [← unpacked]
  obtain ⟨low, high⟩ := calendar.range lt readValid (by omega) (by omega)
  have word := toUInt32_cast low.le high
  have minute := calendar.seconds (calendar.localtime time)
  rw [inverse] at minute
  constructor
  · rintro ⟨value, same, truncated⟩
    rw [read] at same
    obtain rfl := Except.ok.inj same
    by_contra late
    have sec : lt.sec = 0 := by rw [← unpacked]
    have earlier := calendar.later lt _ readValid
      (valid.minute (calendar.localtime time).year) sec rfl (by dsimp only; omega)
    rw [calendar.seconds, inverse] at earlier
    omega
  · intro early
    refine ⟨_, read, ?_⟩
    have own : lt = { { calendar.localtime time with sec := 0 } with wday := 0 } := by
      have same : ((calendar.localtime time).year - 100) % 32 + 100
          = (calendar.localtime time).year := by omega
      rw [← unpacked, same]
    rw [word, own, calendar.weekday, minute]

/-- New year's eve of 2031, one second before midnight. -/
theorem packed_time_comes_back_iff_applied
    : ∃ after, ByteBuffer.appendPackedTime {} Gregorian.utc 0 1956527999 = some after
        ∧ ∃ value : Nat, (Reader.readPackedTime Gregorian.utc (after.readFrom 0)).1 = .ok value
          ∧ (value : Int) = 1956527999 - 59 := by
  obtain ⟨after, done⟩ := Option.isSome_iff_exists.mp
    (@ByteBuffer.appendNumber_isSome {} rfl .uint32
      (packTime (timeBreakdown Gregorian.utc 0 1956527999)) (by decide))
  refine ⟨after, done, ?_⟩
  exact (packed_time_comes_back_iff Gregorian.utc 0 1956527999 (by decide) {} after done).mpr
    (by decide)

/-- The first minute of 2032 is read as that of the year 2000. -/
theorem packed_time_loses_years
    : ∃ after, ByteBuffer.appendPackedTime {} Gregorian.utc 0 1956528000 = some after
        ∧ (Reader.readPackedTime Gregorian.utc (after.readFrom 0)).1 = .ok 946684800
        ∧ (Gregorian.utc.localtime 1956528000).year - 100 = 32
        ∧ 1956528000 - (Gregorian.utc.localtime 1956528000).sec = 1956528000 := by
  obtain ⟨after, done⟩ := Option.isSome_iff_exists.mp
    (@ByteBuffer.appendNumber_isSome {} rfl .uint32
      (packTime (timeBreakdown Gregorian.utc 0 1956528000)) (by decide))
  refine ⟨after, done, ?_, by decide, by decide⟩
  rw [readPackedTime_of_append done]
  decide +kernel

end WarheadCore.Packets
