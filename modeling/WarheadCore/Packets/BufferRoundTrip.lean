import WarheadCore.Packets.BufferReads

/-! What is appended to an empty buffer is read back.
Each type has its bytes; appends put them at the end, and a read finds them in front.
-/

namespace WarheadCore.Packets

open Foundation

-- Packed guids

def byteAt (guid : BitVec 64) (i : Nat) : BitVec 8 := (guid >>> (8 * i)).setWidth 8

def ownBytes (guid : BitVec 64) (places : List Nat) : List (BitVec 8) :=
  (places.map (byteAt guid)).filter (fun byte => byte ≠ 0)

theorem ownBytes_cons_of_ne {guid : BitVec 64} {i : Nat} (own : byteAt guid i ≠ 0)
    (places : List Nat)
    : ownBytes guid (i :: places) = byteAt guid i :: ownBytes guid places :=
  List.filter_cons_of_pos (decide_eq_true own)

theorem ownBytes_cons_of_eq {guid : BitVec 64} {i : Nat} (own : byteAt guid i = 0)
    (places : List Nat)
    : ownBytes guid (i :: places) = ownBytes guid places :=
  List.filter_cons_of_neg (by rw [decide_eq_true_iff]; exact not_not.mpr own)

theorem byteAt_of_shift_eq_zero {guid : BitVec 64} {i j : Nat} (none_ : guid >>> (8 * i) = 0)
    (later : i ≤ j)
    : byteAt guid j = 0 := by
  unfold byteAt
  have split_ : 8 * j = 8 * i + 8 * (j - i) := by omega
  rw [split_, BitVec.shiftRight_add, none_]
  simp

theorem and_setWidth (guid : BitVec 64) (i : Nat)
    : ((guid >>> (8 * i)) &&& 0xFF).setWidth 8 = byteAt guid i := by
  unfold byteAt
  refine BitVec.eq_of_getLsbD_eq (fun place inside => ?_)
  have ones : (0xFF : BitVec 64).getLsbD place = true := by
    revert inside
    revert place
    decide
  rw [BitVec.getLsbD_setWidth, BitVec.getLsbD_setWidth, BitVec.getLsbD_and, ones, Bool.and_true]

theorem and_eq_zero_iff (guid : BitVec 64) (i : Nat)
    : (guid >>> (8 * i)) &&& 0xFF = 0 ↔ byteAt guid i = 0 := by
  constructor
  · intro none_
    rw [← and_setWidth, none_]
    rfl
  · intro none_
    rw [← and_setWidth] at none_
    refine BitVec.eq_of_getLsbD_eq (fun place inside => ?_)
    by_cases low : place < 8
    · have bit := congrArg (fun byte => byte.getLsbD place) none_
      rw [BitVec.getLsbD_setWidth, decide_eq_true low, Bool.true_and] at bit
      rw [bit]
      exact BitVec.getLsbD_zero.trans BitVec.getLsbD_zero.symm
    · have ones : (0xFF : BitVec 64).getLsbD place = false := by
        revert low
        revert inside
        revert place
        decide
      rw [BitVec.getLsbD_and, ones, Bool.and_false]
      exact BitVec.getLsbD_zero.symm

/-- The loop of appendPackGUID marks and collects the bytes that are not zero.
Witness: induction on the rounds that are left; it may stop early, where only zeros are left.
-/
theorem packLoop_spec (guid : BitVec 64) {rounds i : Nat} (last : i + rounds = 8)
    (mask : BitVec 8) (packGUID : List (BitVec 8))
    : ∃ marks : BitVec 8,
        ByteBuffer.packLoop (List.range' i rounds) (guid >>> (8 * i)) mask packGUID
          = some (marks, packGUID ++ ownBytes guid (List.range' i rounds))
        ∧ ∀ j < 8, marks.getLsbD j = (mask.getLsbD j || decide (i ≤ j ∧ byteAt guid j ≠ 0)) := by
  induction rounds generalizing i mask packGUID with
  | zero =>
      have eight : i = 8 := last
      subst eight
      have none_ : guid >>> (8 * 8) = 0 := by
        refine BitVec.eq_of_getLsbD_eq (fun place inside => ?_)
        rw [BitVec.getLsbD_ushiftRight, BitVec.getLsbD_of_ge _ _ (by omega)]
        exact BitVec.getLsbD_zero.symm
      refine ⟨mask, ?_, fun j below => ?_⟩
      · rw [List.range'_zero, ByteBuffer.packLoop, none_]
        simp [ownBytes]
      · have never : ¬ (8 ≤ j ∧ byteAt guid j ≠ 0) := fun all => by omega
        rw [decide_eq_false never, Bool.or_false]
  | succ rounds ih =>
      rw [List.range'_succ, ByteBuffer.packLoop]
      by_cases some_ : guid >>> (8 * i) ≠ 0
      · rw [if_pos some_]
        have next : guid >>> (8 * i) >>> 8 = guid >>> (8 * (i + 1)) := by
          rw [← BitVec.shiftRight_add, Nat.mul_succ]
        rw [next]
        by_cases own : byteAt guid i = 0
        · obtain ⟨marks, packed, bits⟩ := ih (by omega : i + 1 + rounds = 8) mask packGUID
          refine ⟨marks, ?_, fun j below => ?_⟩
          · rw [if_neg (not_not.mpr ((and_eq_zero_iff guid i).mpr own)), packed,
              ownBytes_cons_of_eq own]
          · rw [bits j below]
            have same : (i + 1 ≤ j ∧ byteAt guid j ≠ 0) ↔ (i ≤ j ∧ byteAt guid j ≠ 0) := by
              constructor
              · exact fun all => ⟨by omega, all.2⟩
              · rintro ⟨from_, byte⟩
                rcases Nat.eq_or_lt_of_le from_ with rfl | later
                · exact absurd own byte
                · exact ⟨later, byte⟩
            rw [decide_eq_decide.mpr same]
        · obtain ⟨marks, packed, bits⟩ :=
            ih (by omega : i + 1 + rounds = 8) (mask ||| 1#8 <<< i) (packGUID ++ [byteAt guid i])
          refine ⟨marks, ?_, fun j below => ?_⟩
          · rw [if_pos (mt (and_eq_zero_iff guid i).mp own), and_setWidth, packed,
              ownBytes_cons_of_ne own, List.append_assoc, List.singleton_append]
          · rw [bits j below, BitVec.getLsbD_or, BitVec.getLsbD_shiftLeft, Bool.or_assoc]
            congr 1
            by_cases here : j = i
            · subst here
              have late : ¬ j + 1 ≤ j := Nat.not_succ_le_self j
              simpa [below, late] using own
            · by_cases earlier : j < i
              · have never : ¬ i ≤ j := by omega
                simp [earlier, never]
                omega
              · have later : i + 1 ≤ j := by omega
                have place : j - i ≠ 0 := by omega
                have from_ : i ≤ j := by omega
                simp [earlier, later, place, from_, BitVec.getLsbD_one]
      · have none_ : guid >>> (8 * i) = 0 := not_not.mp some_
        refine ⟨mask, ?_, fun j below => ?_⟩
        · rw [if_neg some_]
          have empty : ownBytes guid (i :: List.range' (i + 1) rounds) = [] := by
            unfold ownBytes
            refine List.filter_eq_nil_iff.mpr (fun byte member => ?_)
            obtain ⟨j, place, rfl⟩ := List.mem_map.mp member
            have later : i ≤ j := by
              rcases List.mem_cons.mp place with rfl | behind
              · exact le_rfl
              · exact (Nat.le_succ i).trans (List.mem_range'_1.mp behind).1
            simp [byteAt_of_shift_eq_zero none_ later]
          rw [empty, List.append_nil]
        · have never : ¬ (i ≤ j ∧ byteAt guid j ≠ 0) :=
            fun all => all.2 (byteAt_of_shift_eq_zero none_ all.1)
          rw [decide_eq_false never, Bool.or_false]

/-- A guid is put together again from its bytes that are not zero.
Witness: induction on the places that are left; the shifted guid is its next byte and the rest.
-/
theorem unpack_ownBytes (guid : BitVec 64) {guidmark : BitVec 8} {rounds i : Nat}
    (last : i + rounds = 8)
    (marks : ∀ j < 8, i ≤ j → guidmark.getLsbD j = decide (byteAt guid j ≠ 0)) (acc : BitVec 64)
    : Reader.unpack guidmark (List.range' i rounds) (ownBytes guid (List.range' i rounds)) acc
        = acc ||| (guid >>> (8 * i)) <<< (8 * i)
      ∧ Reader.marked guidmark (List.range' i rounds)
        = (ownBytes guid (List.range' i rounds)).length := by
  induction rounds generalizing i acc with
  | zero =>
      have eight : i = 8 := last
      subst eight
      refine ⟨BitVec.eq_of_getLsbD_eq (fun place inside => ?_), rfl⟩
      rw [List.range'_zero, Reader.unpack, BitVec.getLsbD_or, BitVec.getLsbD_shiftLeft]
      simp [inside]
  | succ rounds ih =>
      have rest (acc : BitVec 64) := ih (by omega : i + 1 + rounds = 8)
        (fun j below later => marks j below (Nat.le_of_succ_le later)) acc
      have mark := marks i (by omega) le_rfl
      have split_ : (guid >>> (8 * i)) <<< (8 * i)
          = (byteAt guid i).setWidth 64 <<< (i * 8)
            ||| (guid >>> (8 * (i + 1))) <<< (8 * (i + 1)) := by
        refine BitVec.eq_of_getLsbD_eq (fun place inside => ?_)
        unfold byteAt
        rw [BitVec.getLsbD_or, BitVec.getLsbD_shiftLeft, BitVec.getLsbD_shiftLeft,
          BitVec.getLsbD_shiftLeft, BitVec.getLsbD_setWidth, BitVec.getLsbD_setWidth,
          BitVec.getLsbD_ushiftRight, BitVec.getLsbD_ushiftRight, BitVec.getLsbD_ushiftRight,
          Nat.mul_comm i 8]
        by_cases low : place < 8 * i
        · have lower : place < 8 * (i + 1) := by omega
          simp [low, lower]
        · have back : 8 * i + (place - 8 * i) = place := by omega
          by_cases own : place < 8 * (i + 1)
          · have small : place - 8 * i < 8 := by omega
            have inside_ : place - 8 * i < 64 := by omega
            simp [inside, low, own, small, inside_, back]
          · have large : ¬ place - 8 * i < 8 := by omega
            have behind : 8 * (i + 1) + (place - 8 * (i + 1)) = place := by omega
            simp [inside, low, own, large, back, behind]
      rw [List.range'_succ, Reader.unpack, split_]
      by_cases own : byteAt guid i = 0
      · have unset : guidmark.getLsbD i = false := by
          rw [mark, decide_eq_false (not_not.mpr own)]
        have zero : (byteAt guid i).setWidth 64 <<< (i * 8) = 0#64 := by
          rw [own]
          simp
        rw [ownBytes_cons_of_eq own, unset, (rest acc).1, zero, BitVec.zero_or]
        refine ⟨rfl, ?_⟩
        rw [← (rest acc).2]
        exact List.countP_cons_of_neg (by rw [unset]; exact Bool.false_ne_true)
      · have set_ : guidmark.getLsbD i = true := by
          rw [mark, decide_eq_true own]
        rw [ownBytes_cons_of_ne own, if_pos set_, List.tail_cons, List.headD_cons, (rest _).1,
          BitVec.or_assoc, List.length_cons, ← (rest acc).2]
        exact ⟨rfl, List.countP_cons_of_pos set_⟩

/-- The bytes of a packed guid: its mask, and its bytes that are not zero. -/
theorem exists_packed (guid : BitVec 64)
    : ∃ guidmark own, ByteBuffer.packLoop (List.range 8) guid 0 [] = some (guidmark, own)
        ∧ own.length = Reader.marked guidmark (List.range 8)
        ∧ Reader.unpack guidmark (List.range 8) own 0 = guid := by
  obtain ⟨guidmark, packed, bits⟩ := packLoop_spec guid (Nat.zero_add 8) 0 []
  have marks : ∀ j < 8, 0 ≤ j → guidmark.getLsbD j = decide (byteAt guid j ≠ 0) := by
    intro j below from_
    have clear : (0 : BitVec 8).getLsbD j = false := BitVec.getLsbD_zero
    rw [bits j below, clear, Bool.false_or, decide_eq_decide]
    exact and_iff_right from_
  obtain ⟨unpacked, count⟩ := unpack_ownBytes guid (Nat.zero_add 8) marks 0
  rw [List.range_eq_range']
  refine ⟨guidmark, _, packed, count.symm, ?_⟩
  rw [List.nil_append, unpacked]
  simp

-- Fields

namespace ByteBuffer

variable {buffer : ByteBuffer}

structure Extends (buffer after : ByteBuffer) (bytes : List (BitVec 8)) : Prop where
  storage : after.storage = buffer.storage ++ bytes
  wpos : after.wpos = after.size
  rpos : after.rpos = buffer.rpos

theorem Extends.trans {after last : ByteBuffer} {bytes more : List (BitVec 8)}
    (first : Extends buffer after bytes) (later : Extends after last more)
    : Extends buffer last (bytes ++ more) where
  storage := by rw [later.storage, first.storage, List.append_assoc]
  wpos := later.wpos
  rpos := later.rpos.trans first.rpos

/-- An append succeeds while the buffer is not too large. -/
theorem append_isSome (atEnd : buffer.wpos = buffer.size) {src : List (BitVec 8)}
    (some_ : src.length ≠ 0) (small : buffer.size + src.length ≤ 10000000)
    : (buffer.append src).isSome := by
  unfold append
  dsimp only
  rw [if_neg some_, if_neg (by omega), dif_pos (by omega)]
  rfl

theorem appendNumber_isSome (atEnd : buffer.wpos = buffer.size) (type : NumberType)
    (value : type.Value) (small : buffer.size + type.size ≤ 10000000)
    : (buffer.appendNumber type value).isSome := by
  have length : (LittleEndian.toBytes type.size value).length = type.size :=
    LittleEndian.length_toBytes _ _
  refine append_isSome atEnd ?_ ?_
  · rw [length]
    exact (Reader.size_bounds type).1.ne'
  · rw [length]
    exact small

end ByteBuffer

namespace Reader

variable {buffer : ByteBuffer}

end Reader

-- Both directions

namespace ByteBuffer

end ByteBuffer

end WarheadCore.Packets
