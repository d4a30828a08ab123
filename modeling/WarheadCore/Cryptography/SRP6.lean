import Mathlib.Data.Vector.Zip
import Mathlib.Data.ZMod.Basic
import Mathlib.Tactic.Ring
import WarheadCore.Foundation.Sha1

/-! The server's side of SRP6: verifiers, the check of a client's proof, and the interleaved hash.
The hash function is a parameter. The server accepts the proof of a client that computes by the
equations of SRP6a, with the client's session key, and no other proof.
-/

namespace WarheadCore.Cryptography

open Foundation

abbrev ByteArray (size : Nat) : Type := List.Vector (BitVec 8) size

abbrev Hash : Type := List (BitVec 8) → ByteArray 20

-- BigNumber

def bigNumber {size : Nat} (bytes : ByteArray size) : Nat :=
  (LittleEndian.ofBytes bytes.toList : BitVec (8 * size)).toNat

/-- BigNumber::ToByteArray, little endian; a number that is too large fails the assertion. -/
def toByteArray (size value : Nat) : Option (ByteArray size) :=
  if value < 2 ^ (8 * size) then
    some ⟨LittleEndian.toBytes size (BitVec.ofNat (8 * size) value), LittleEndian.length_toBytes _ _⟩
  else none

def modExp (base exponent modulus : Nat) : Nat :=
  base ^ exponent % modulus

-- SRP6

namespace SRP6

def g : ByteArray 1 := ⟨[7], rfl⟩

def _g : Nat := bigNumber g

/-- The modulus: the hexadecimal digits in reverse order of the bytes. -/
def N : ByteArray 32 :=
  ⟨LittleEndian.toBytes 32
    0x894B645E89E1535BBDAD5B8B290650530801B18EBFBF5E8FAB3C82872A3E9BB7#256, rfl⟩

def _N : Nat := bigNumber N

variable (sha1 : Hash)

/-- x: the hash of the salt and of the hash of the name and the password. -/
def privateKey (username password : List (BitVec 8)) (salt : ByteArray 32) : Nat :=
  bigNumber (sha1 (salt.toList ++ (sha1 (username ++ 0x3A :: password)).toList))

def calculateVerifier (username password : List (BitVec 8)) (salt : ByteArray 32)
    : Option (ByteArray 32) :=
  toByteArray 32 (modExp _g (privateKey sha1 username password salt) _N)

def sizeSub (first second : Nat) : Nat := (first + 2 ^ 64 - second) % 2 ^ 64

/-- The bytes that a pointer and a length name; there are none outside of the array. -/
def readRange {size : Nat} (bytes : ByteArray size) (offset length : Nat)
    : Option (List (BitVec 8)) :=
  if offset + length ≤ size then some ((bytes.toList.drop offset).take length) else none

/-- Every second byte, from the first one on or from the second one on. -/
def half (S : ByteArray 32) (second : Fin 2) : ByteArray 16 :=
  List.Vector.ofFn (fun i : Fin 16 => S.get ⟨2 * i + second, by omega⟩)

def interleave (hash0 hash1 : ByteArray 20) : ByteArray 40 :=
  List.Vector.ofFn (fun i : Fin 40 =>
    if i.val % 2 = 0 then hash0.get ⟨i / 2, by omega⟩ else hash1.get ⟨i / 2, by omega⟩)

/-- The position of the first byte that is not zero, rounded up to an even one, as an offset into
the halves.
-/
def offset (S : ByteArray 32) : Nat :=
  let p := S.toList.findIdx (fun byte => byte != 0)
  (if p % 2 = 1 then p + 1 else p) / 2

def SHA1Interleave (S : ByteArray 32) : Option (ByteArray 40) := do
  let p := offset S
  let bytes0 ← readRange (half S 0) p (sizeSub 16 p)
  let bytes1 ← readRange (half S 1) p (sizeSub 16 p)
  return interleave (sha1 bytes0) (sha1 bytes1)

def NgHash : ByteArray 20 :=
  List.Vector.zipWith (· ^^^ ·) (sha1 N.toList) (sha1 g.toList)

def proof (I : ByteArray 20) (s A B : ByteArray 32) (K : ByteArray 40) : ByteArray 20 :=
  sha1 ((NgHash sha1).toList ++ I.toList ++ s.toList ++ A.toList ++ B.toList ++ K.toList)

end SRP6

structure SRP6 where
  _used : Bool
  _I : ByteArray 20
  _b : Nat
  _v : Nat
  s : ByteArray 32
  B : ByteArray 32

namespace SRP6

variable (sha1 : Hash)

def _B (b v : Nat) : Option (ByteArray 32) :=
  toByteArray 32 ((modExp _g b _N + v * 3) % _N)

/-- The constructor, with the random bytes that it draws. -/
def make (username : List (BitVec 8)) (salt verifier random : ByteArray 32) : Option SRP6 := do
  let _b := bigNumber random
  let _v := bigNumber verifier
  let B ← _B _b _v
  return { _used := false, _I := sha1 username, _b, _v, s := salt, B }

/-- The state afterwards and the result; there is none when an assertion fails. -/
def verifyChallengeResponse (srp6 : SRP6) (A : ByteArray 32) (clientM : ByteArray 20)
    : Option (SRP6 × Option (ByteArray 40)) := do
  guard (!srp6._used)
  let used := { srp6 with _used := true }
  let _A := bigNumber A
  if _A % _N = 0 then return (used, none)
  let u := bigNumber (sha1 (A.toList ++ srp6.B.toList))
  let S ← toByteArray 32 (modExp (_A * modExp srp6._v u _N) srp6._b (bigNumber N))
  let K ← SHA1Interleave sha1 S
  let ourM := proof sha1 srp6._I srp6.s A srp6.B K
  return (used, if ourM = clientM then some K else none)

end SRP6

-- Numbers and their bytes

/-- The number of the bytes of a number. -/
theorem bigNumber_of_toByteArray {size value : Nat} {bytes : ByteArray size}
    (stored : toByteArray size value = some bytes)
    : bigNumber bytes = value := by
  unfold toByteArray at stored
  split at stored
  · next small =>
      obtain rfl := Option.some.inj stored
      unfold bigNumber
      rw [List.Vector.toList_mk, LittleEndian.ofBytes_toBytes le_rfl, BitVec.toNat_ofNat]
      exact Nat.mod_eq_of_lt small
  · cases stored

theorem toByteArray_of_lt {size value : Nat} (small : value < 2 ^ (8 * size))
    : ∃ bytes, toByteArray size value = some bytes :=
  ⟨_, if_pos small⟩

namespace SRP6

theorem _N_eq : _N = 0x894B645E89E1535BBDAD5B8B290650530801B18EBFBF5E8FAB3C82872A3E9BB7 :=
  congrArg BitVec.toNat (LittleEndian.ofBytes_toBytes le_rfl _)

theorem _N_pos : 0 < _N := by
  rw [_N_eq]
  decide

instance : NeZero _N := ⟨Nat.ne_of_gt _N_pos⟩

/-- What is reduced modulo N fits into 32 bytes. -/
theorem toByteArray_mod (value : Nat) : ∃ bytes, toByteArray 32 (value % _N) = some bytes := by
  refine toByteArray_of_lt ((Nat.mod_lt _ _N_pos).trans ?_)
  rw [_N_eq]
  decide

@[simp] theorem cast_modExp (base exponent : Nat)
    : (modExp base exponent _N : ZMod _N) = (base : ZMod _N) ^ exponent := by
  unfold modExp
  rw [ZMod.natCast_mod, Nat.cast_pow]

-- The interleaved hash

theorem offset_le (S : ByteArray 32) : offset S ≤ 16 := by
  have bound : S.toList.findIdx (fun byte => byte != 0) ≤ 32 := by
    have le : S.toList.findIdx (fun byte => byte != 0) ≤ S.toList.length :=
      List.findIdx_le_length
    rwa [S.toList_length] at le
  unfold offset
  dsimp only
  split <;> omega

/-- The reads stay inside of the halves, and take them from the offset on. -/
theorem readRange_half (S : ByteArray 32) (second : Fin 2)
    : readRange (half S second) (offset S) (sizeSub 16 (offset S))
      = some ((half S second).toList.drop (offset S)) := by
  have inside := offset_le S
  have rest : sizeSub 16 (offset S) = 16 - offset S := by
    unfold sizeSub
    omega
  unfold readRange
  rw [rest, if_pos (by omega)]
  refine congrArg some (List.take_of_length_le ?_)
  rw [List.length_drop, List.Vector.toList_length]

theorem SHA1Interleave_eq (sha1 : Hash) (S : ByteArray 32)
    : SHA1Interleave sha1 S
      = some (interleave (sha1 ((half S 0).toList.drop (offset S)))
          (sha1 ((half S 1).toList.drop (offset S)))) := by
  unfold SHA1Interleave
  dsimp only
  rw [readRange_half, readRange_half]
  rfl

end SRP6

-- The client

/-- A client: its hash function, what the user enters, and its secret. -/
structure Client where
  sha1 : Hash
  username : List (BitVec 8)
  password : List (BitVec 8)
  a : Nat

namespace Client

open SRP6

variable (client : Client)

def publicKey : ZMod _N := (_g : ZMod _N) ^ client.a

/-- S = (B - 3 g ^ x) ^ (a + u x), from what the server sends and the hash u of both public keys. -/
def secret (s A B : ByteArray 32) : ZMod _N :=
  let x := privateKey client.sha1 client.username client.password s
  let u := bigNumber (client.sha1 (A.toList ++ B.toList))
  ((bigNumber B : ZMod _N) - 3 * (_g : ZMod _N) ^ x) ^ (client.a + u * x)

def bytes (value : ZMod _N) : Option (ByteArray 32) := toByteArray 32 value.val

def answer (s A B : ByteArray 32) : Option (ByteArray 40 × ByteArray 20) := do
  let S ← bytes (client.secret s A B)
  let K ← SHA1Interleave client.sha1 S
  return (K, proof client.sha1 (client.sha1 client.username) s A B K)

end Client

namespace SRP6

variable {client : Client} {salt random verifier : ByteArray 32} {srp6 : SRP6}

structure SetUp (client : Client) (salt random : ByteArray 32) (srp6 : SRP6) : Prop where
  unused : srp6._used = false
  name : srp6._I = client.sha1 client.username
  secret : srp6._b = bigNumber random
  verifier : srp6._v = modExp _g (privateKey client.sha1 client.username client.password salt) _N
  salt : srp6.s = salt
  publicKey : bigNumber srp6.B = (modExp _g srp6._b _N + srp6._v * 3) % _N

/-- Verifiers and servers can be made, for every user. -/
theorem exists_setUp (client : Client) (salt random : ByteArray 32)
    : ∃ verifier srp6,
        calculateVerifier client.sha1 client.username client.password salt = some verifier
          ∧ make client.sha1 client.username salt verifier random = some srp6
          ∧ SetUp client salt random srp6 := by
  obtain ⟨verifier, isVerifier⟩ :=
    toByteArray_mod (_g ^ privateKey client.sha1 client.username client.password salt)
  obtain ⟨B, isB⟩ := toByteArray_mod (modExp _g (bigNumber random) _N + bigNumber verifier * 3)
  have made : make client.sha1 client.username salt verifier random
      = some ⟨false, client.sha1 client.username, bigNumber random, bigNumber verifier, salt, B⟩ := by
    unfold make _B
    dsimp only
    rw [isB]
    rfl
  refine ⟨verifier, _, isVerifier, made, ?_⟩
  exact {
    unused := rfl
    name := rfl
    secret := rfl
    verifier := bigNumber_of_toByteArray isVerifier
    salt := rfl
    publicKey := bigNumber_of_toByteArray isB }

/-- The two sides compute the same secret.
Witness: 3v drops out of B, and both are g to the power of b (a + u x).
-/
theorem SetUp.secret_eq (set : SetUp client salt random srp6) {A : ByteArray 32}
    (isA : (bigNumber A : ZMod _N) = client.publicKey)
    : (modExp (bigNumber A * modExp srp6._v (bigNumber (client.sha1 (A.toList ++ srp6.B.toList))) _N)
        srp6._b _N : ZMod _N)
      = client.secret salt A srp6.B := by
  have offered : (bigNumber srp6.B : ZMod _N)
        - 3 * (_g : ZMod _N) ^ privateKey client.sha1 client.username client.password salt
      = (_g : ZMod _N) ^ srp6._b := by
    rw [set.publicKey, ZMod.natCast_mod, Nat.cast_add, Nat.cast_mul, set.verifier, cast_modExp,
      cast_modExp]
    push_cast
    ring
  unfold Client.secret
  dsimp only
  rw [offered, cast_modExp, Nat.cast_mul, isA, cast_modExp, set.verifier, cast_modExp]
  unfold Client.publicKey
  rw [← pow_mul, ← pow_add, ← pow_mul, ← pow_mul]
  congr 1
  ring

/-- A server that was not used checks that the public key is not zero, then the proof. -/
theorem verify_of_unused (sha1 : Hash) (unused : srp6._used = false) (A : ByteArray 32)
    (clientM : ByteArray 20)
    : verifyChallengeResponse sha1 srp6 A clientM
      = if bigNumber A % _N = 0 then some ({ srp6 with _used := true }, none)
        else (toByteArray 32 (modExp
            (bigNumber A * modExp srp6._v (bigNumber (sha1 (A.toList ++ srp6.B.toList))) _N)
            srp6._b (bigNumber N))).bind (fun S => (SHA1Interleave sha1 S).bind (fun K =>
          some ({ srp6 with _used := true },
            if proof sha1 srp6._I srp6.s A srp6.B K = clientM then some K else none))) := by
  unfold verifyChallengeResponse
  rw [unused]
  dsimp only
  split <;> rfl

/-- The answer of a client is accepted with its key, every other proof is turned down. -/
theorem SetUp.verify (set : SetUp client salt random srp6) {A : ByteArray 32}
    (isA : (bigNumber A : ZMod _N) = client.publicKey) (nonzero : bigNumber A % _N ≠ 0)
    : ∃ K M, client.answer salt A srp6.B = some (K, M) ∧ ∀ clientM,
        verifyChallengeResponse client.sha1 srp6 A clientM
          = some ({ srp6 with _used := true }, if M = clientM then some K else none) := by
  have same := set.secret_eq isA
  obtain ⟨S, isS⟩ := toByteArray_mod
    ((bigNumber A * modExp srp6._v (bigNumber (client.sha1 (A.toList ++ srp6.B.toList))) _N)
      ^ srp6._b)
  have value : (client.secret salt A srp6.B).val
      = modExp (bigNumber A
          * modExp srp6._v (bigNumber (client.sha1 (A.toList ++ srp6.B.toList))) _N) srp6._b _N := by
    rw [← same, ZMod.val_natCast]
    exact Nat.mod_mod _ _
  let K := interleave (client.sha1 ((half S 0).toList.drop (offset S)))
    (client.sha1 ((half S 1).toList.drop (offset S)))
  refine ⟨K, proof client.sha1 (client.sha1 client.username) salt A srp6.B K, ?_, fun clientM => ?_⟩
  · unfold Client.answer Client.bytes
    rw [value]
    unfold modExp at isS ⊢
    rw [isS]
    dsimp only [Option.bind_eq_bind, Option.bind_some]
    rw [SHA1Interleave_eq]
    rfl
  · rw [verify_of_unused _ set.unused, if_neg nonzero]
    have isS' : toByteArray 32 (modExp (bigNumber A
        * modExp srp6._v (bigNumber (client.sha1 (A.toList ++ srp6.B.toList))) _N) srp6._b
          (bigNumber N)) = some S := isS
    rw [isS', Option.bind_some, SHA1Interleave_eq, set.name, set.salt]
    rfl

/-- A public key that is zero modulo N is turned down. -/
theorem verify_of_zero (sha1 : Hash) (unused : srp6._used = false) {A : ByteArray 32}
    (zero : bigNumber A % _N = 0) (clientM : ByteArray 20)
    : verifyChallengeResponse sha1 srp6 A clientM = some ({ srp6 with _used := true }, none) := by
  rw [verify_of_unused sha1 unused, if_pos zero]

/-- For every user, salt and secrets, the server that is made from the user's verifier accepts
exactly the proof of the client, with the client's session key, turns down public keys that are zero
modulo N, and reads inside of the halves of every secret.
-/
theorem server_agrees_with_client (client : Client) (salt random : ByteArray 32)
    : ∃ verifier srp6,
        calculateVerifier client.sha1 client.username client.password salt = some verifier
          ∧ make client.sha1 client.username salt verifier random = some srp6
          ∧ (∀ A, (bigNumber A : ZMod _N) = client.publicKey → bigNumber A % _N ≠ 0 →
              ∃ K M, client.answer salt A srp6.B = some (K, M) ∧ ∀ clientM,
                verifyChallengeResponse client.sha1 srp6 A clientM
                  = some ({ srp6 with _used := true }, if M = clientM then some K else none))
          ∧ (∀ A clientM, bigNumber A % _N = 0 →
              verifyChallengeResponse client.sha1 srp6 A clientM
                = some ({ srp6 with _used := true }, none))
          ∧ ∀ S second, readRange (half S second) (offset S) (sizeSub 16 (offset S))
              = some ((half S second).toList.drop (offset S)) := by
  obtain ⟨verifier, srp6, isVerifier, made, set⟩ := exists_setUp client salt random
  exact ⟨verifier, srp6, isVerifier, made,
    fun A isA nonzero => set.verify isA nonzero,
    fun A clientM zero => verify_of_zero client.sha1 set.unused zero clientM,
    readRange_half⟩

def sampleClient : Client where
  sha1 := Sha1.digest
  username := [0x41]
  password := [0x42]
  a := 1

def samplePublicKey : ByteArray 32 := ⟨LittleEndian.toBytes 32 7#256, rfl⟩

theorem server_agrees_with_client_applied
    : ∃ srp6 K M, sampleClient.answer N samplePublicKey srp6.B = some (K, M)
        ∧ verifyChallengeResponse Sha1.digest srp6 samplePublicKey M
          = some ({ srp6 with _used := true }, some K) := by
  have value : bigNumber samplePublicKey = 7 :=
    congrArg BitVec.toNat (LittleEndian.ofBytes_toBytes le_rfl _)
  have generator : _g = 7 := by decide
  have isA : (bigNumber samplePublicKey : ZMod _N) = sampleClient.publicKey := by
    rw [value]
    unfold Client.publicKey
    rw [generator]
    exact (pow_one _).symm
  have nonzero : bigNumber samplePublicKey % _N ≠ 0 := by
    rw [value, _N_eq]
    decide
  obtain ⟨verifier, srp6, -, -, accepts, -⟩ := server_agrees_with_client sampleClient N N
  obtain ⟨K, M, answered, verified⟩ := accepts samplePublicKey isA nonzero
  exact ⟨srp6, K, M, answered, (verified M).trans (by rw [if_pos rfl])⟩

end SRP6

end WarheadCore.Cryptography
