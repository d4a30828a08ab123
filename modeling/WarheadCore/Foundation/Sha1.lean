import Mathlib.Data.Vector.Defs
import WarheadCore.Foundation.LittleEndian

/-! The secure hash algorithm SHA-1 over byte strings. -/

namespace Foundation.Sha1

structure State where
  a : BitVec 32 := 0x67452301
  b : BitVec 32 := 0xEFCDAB89
  c : BitVec 32 := 0x98BADCFE
  d : BitVec 32 := 0x10325476
  e : BitVec 32 := 0xC3D2E1F0

def bigEndian {w : Nat} (count : Nat) (word : BitVec w) : List (BitVec 8) :=
  (LittleEndian.toBytes count word).reverse

/-- A message with its padding: a one, zeros up to a multiple of 64 bytes, and its length in bits. -/
def padded (message : List (BitVec 8)) : List (BitVec 8) :=
  let zeros := (119 - message.length % 64) % 64
  message ++ 0x80 :: List.replicate zeros 0
    ++ bigEndian 8 (BitVec.ofNat 64 (8 * message.length))

def toWords : List (BitVec 8) → List (BitVec 32)
  | a :: b :: c :: d :: rest => (a ++ b ++ c ++ d) :: toWords rest
  | _ => []

def blocks : Nat → List (BitVec 32) → List (List (BitVec 32))
  | 0, _ => []
  | count + 1, words => words.take 16 :: blocks count (words.drop 16)

/-- The 80 words of a block; each new word mixes four of the last 16. -/
def schedule (block : List (BitVec 32)) : List (BitVec 32) :=
  let extended := (List.range 64).foldl (fun words _ =>
    let mixed := words.getD 2 0 ^^^ words.getD 7 0 ^^^ words.getD 13 0 ^^^ words.getD 15 0
    mixed.rotateLeft 1 :: words) block.reverse
  extended.reverse

def choice (round : Nat) (state : State) : BitVec 32 :=
  if round < 20 then (state.b &&& state.c) ||| (~~~state.b &&& state.d)
  else if 40 ≤ round ∧ round < 60 then
    (state.b &&& state.c) ||| (state.b &&& state.d) ||| (state.c &&& state.d)
  else state.b ^^^ state.c ^^^ state.d

def constant (round : Nat) : BitVec 32 :=
  if round < 20 then 0x5A827999
  else if round < 40 then 0x6ED9EBA1
  else if round < 60 then 0x8F1BBCDC
  else 0xCA62C1D6

def round (state : State) (word : Nat × BitVec 32) : State where
  a := state.a.rotateLeft 5 + choice word.1 state + state.e + constant word.1 + word.2
  b := state.a
  c := state.b.rotateLeft 30
  d := state.c
  e := state.d

def compress (state : State) (block : List (BitVec 32)) : State :=
  let words := schedule block
  let mixed := ((List.range words.length).zip words).foldl round state
  { a := state.a + mixed.a
    b := state.b + mixed.b
    c := state.c + mixed.c
    d := state.d + mixed.d
    e := state.e + mixed.e }

def digest (message : List (BitVec 8)) : List.Vector (BitVec 8) 20 :=
  let words := toWords (padded message)
  let state := (blocks (words.length / 16) words).foldl compress {}
  ⟨[state.a, state.b, state.c, state.d, state.e].flatMap (bigEndian 4), by
    simp [bigEndian, List.flatMap]⟩

/-- The digest of abc. -/
example : (digest [0x61, 0x62, 0x63]).toList = bigEndian 20 0xA9993E364706816ABA3E25717850C26C9CD0D89D#160 := by
  decide +kernel

end Foundation.Sha1
