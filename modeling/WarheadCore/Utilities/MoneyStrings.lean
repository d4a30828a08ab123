import Mathlib.Algebra.BigOperators.Group.List.Basic
import Mathlib.Algebra.GroupWithZero.Nat
import Mathlib.Data.List.Nodup
import Mathlib.Data.List.TakeWhile

/-! Amounts of money in texts such as 12g 5s 30c. Each amount is checked for its 32 bits, their sum
is not.
-/

namespace WarheadCore.Utilities

-- Tokens and numbers

/-- The pieces between the separators, with the piece that was begun. -/
def tokenizeFrom (sep : Char) (keepEmpty : Bool) : List Char → List Char → List (List Char)
  | token, [] => if keepEmpty ∨ token ≠ [] then [token] else []
  | token, c :: rest =>
      if c = sep then
        (if keepEmpty ∨ token ≠ [] then [token] else []) ++ tokenizeFrom sep keepEmpty [] rest
      else tokenizeFrom sep keepEmpty (token ++ [c]) rest

def tokenize (str : List Char) (sep : Char) (keepEmpty : Bool) : List (List Char) :=
  tokenizeFrom sep keepEmpty [] str

/-- from_chars of a decimal number below a limit: the number, and what follows its digits. -/
def fromChars (limit : Nat) (str : List Char) : Option (Nat × List Char) :=
  let digits := str.takeWhile Char.isDigit
  if digits = [] then none
  else if Nat.ofDigitChars 10 digits 0 < limit then
    some (Nat.ofDigitChars 10 digits 0, str.dropWhile Char.isDigit)
  else none

/-- StringTo of 32 bits without a sign: all of the text is the number. -/
def stringToUInt32 (str : List Char) : Option (BitVec 32) :=
  match fromChars (2 ^ 32) str with
  | some (val, []) => some (BitVec.ofNat 32 val)
  | _ => none

theorem tokenize_eq (str : List Char) (sep : Char) (keepEmpty : Bool)
    : tokenize str sep keepEmpty
      = (str.splitOn sep).filter (fun piece => keepEmpty ∨ piece ≠ []) := by
  have started (token : List Char)
      : tokenizeFrom sep keepEmpty token str
        = ((str.splitOn sep).modifyHead (token ++ ·)).filter
            (fun piece => keepEmpty ∨ piece ≠ []) := by
    induction str generalizing token with
    | nil =>
        rw [tokenizeFrom, List.splitOn_nil, List.modifyHead_cons, List.append_nil]
        simp [List.filter_cons]
    | cons c rest ih =>
        rw [tokenizeFrom, List.splitOn_cons_eq_if_modifyHead]
        by_cases same : c = sep
        · rw [if_pos same, if_pos (beq_iff_eq.mpr same), ih, List.modifyHead_cons, List.append_nil,
            List.filter_cons]
          have own : (rest.splitOn sep).modifyHead ([] ++ ·) = rest.splitOn sep :=
            congrFun List.modifyHead_id _
          rw [own]
          by_cases kept : keepEmpty ∨ token ≠ []
          · rw [if_pos kept, if_pos (decide_eq_true kept), List.singleton_append]
          · rw [if_neg kept, if_neg (by simpa using kept), List.nil_append]
        · rw [if_neg same, if_neg (mt beq_iff_eq.mp same), ih, List.modifyHead_modifyHead]
          congr 2
          funext piece
          exact List.append_assoc token [c] piece
  have own : (str.splitOn sep).modifyHead ([] ++ ·) = str.splitOn sep :=
    congrFun List.modifyHead_id _
  rw [tokenize, started, own]

/-- The texts that are numbers of 32 bits. -/
theorem stringToUInt32_eq_some {str : List Char} {amount : BitVec 32}
    : stringToUInt32 str = some amount
      ↔ str ≠ [] ∧ (∀ c ∈ str, c.isDigit) ∧ Nat.ofDigitChars 10 str 0 < 2 ^ 32
        ∧ amount = BitVec.ofNat 32 (Nat.ofDigitChars 10 str 0) := by
  unfold stringToUInt32 fromChars
  dsimp only
  by_cases all : ∀ c ∈ str, c.isDigit
  · have digits : str.takeWhile Char.isDigit = str := List.takeWhile_eq_self_iff.mpr all
    have rest : str.dropWhile Char.isDigit = [] := List.dropWhile_eq_nil_iff.mpr all
    rw [digits, rest]
    by_cases empty : str = []
    · rw [if_pos empty]
      exact iff_of_false (Option.some_ne_none _).symm fun right => right.1 empty
    · rw [if_neg empty]
      by_cases small : Nat.ofDigitChars 10 str 0 < 2 ^ 32
      · rw [if_pos small]
        exact Option.some_inj.trans
          ⟨fun same => ⟨empty, all, small, same.symm⟩, fun right => right.2.2.2.symm⟩
      · rw [if_neg small]
        exact iff_of_false (Option.some_ne_none _).symm fun right => small right.2.2.1
  · have rest : str.dropWhile Char.isDigit ≠ [] := mt List.dropWhile_eq_nil_iff.mp all
    refine iff_of_false ?_ fun right => all right.2.1
    split
    · rename_i val found
      split at found
      · cases found
      · split at found
        · exact absurd (congrArg Prod.snd (Option.some.inj found)) rest
        · cases found
    · exact (Option.some_ne_none _).symm

-- Money

structure MoneyState where
  money : BitVec 32 := 0
  hadG : Bool := false
  hadS : Bool := false
  hadC : Bool := false

def moneyUnit (state : MoneyState) (c : Char) : Option (BitVec 32 × MoneyState) :=
  if c = 'g' then if state.hadG then none else some (100 * 100, { state with hadG := true })
  else if c = 's' then if state.hadS then none else some (100, { state with hadS := true })
  else if c = 'c' then if state.hadC then none else some (1, { state with hadC := true })
  else none

def moneyToken (state : MoneyState) (token : List Char) : Option MoneyState := do
  let c ← token.getLast?
  let (unit, state) ← moneyUnit state c
  let amount ← stringToUInt32 token.dropLast
  return { state with money := state.money + unit * amount }

def moneyStringToMoney (moneyString : List Char) : Option Int :=
  ((tokenize moneyString ' ' false).foldlM moneyToken {}).map (fun state => state.money.toInt)

-- What a text says

inductive Denomination where
  | gold
  | silver
  | copper
deriving DecidableEq

namespace Denomination

def letter : Denomination → Char
  | gold => 'g'
  | silver => 's'
  | copper => 'c'

def worth : Denomination → Nat
  | gold => 10000
  | silver => 100
  | copper => 1

end Denomination

def ReadsAs (token : List Char) (coin : Denomination × Nat) : Prop :=
  ∃ digits, token = digits ++ [coin.1.letter] ∧ digits ≠ [] ∧ (∀ c ∈ digits, c.isDigit)
    ∧ Nat.ofDigitChars 10 digits 0 = coin.2

/-- The pieces between the blanks of a text are these coins, each denomination at most once. -/
structure MoneyText (text : List Char) (coins : List (Denomination × Nat)) : Prop where
  tokens : List.Forall₂ ReadsAs ((text.splitOn ' ').filter (· ≠ [])) coins
  once : (coins.map Prod.fst).Nodup

def worth (coins : List (Denomination × Nat)) : Nat :=
  (coins.map (fun coin => coin.1.worth * coin.2)).sum

namespace MoneyState

def had (state : MoneyState) : Denomination → Bool
  | .gold => state.hadG
  | .silver => state.hadS
  | .copper => state.hadC

def mark (state : MoneyState) : Denomination → MoneyState
  | .gold => { state with hadG := true }
  | .silver => { state with hadS := true }
  | .copper => { state with hadC := true }

@[simp] theorem had_mark (state : MoneyState) (marked other : Denomination)
    : (state.mark marked).had other = (decide (other = marked) || state.had other) := by
  cases marked <;> cases other <;> simp [had, mark]

@[simp] theorem money_mark (state : MoneyState) (marked : Denomination)
    : (state.mark marked).money = state.money := by
  cases marked <;> rfl

end MoneyState

theorem moneyUnit_eq_some {state next : MoneyState} {c : Char} {unit : BitVec 32}
    : moneyUnit state c = some (unit, next)
      ↔ ∃ denomination, c = denomination.letter ∧ state.had denomination = false
          ∧ unit = BitVec.ofNat 32 denomination.worth ∧ next = state.mark denomination := by
  constructor
  · intro found
    unfold moneyUnit at found
    split at found
    · rename_i letter
      split at found
      · cases found
      · rename_i first
        obtain ⟨rfl, rfl⟩ := Prod.mk.inj (Option.some.inj found)
        exact ⟨.gold, letter, Bool.not_eq_true _ ▸ first, rfl, rfl⟩
    · split at found
      · rename_i letter
        split at found
        · cases found
        · rename_i first
          obtain ⟨rfl, rfl⟩ := Prod.mk.inj (Option.some.inj found)
          exact ⟨.silver, letter, Bool.not_eq_true _ ▸ first, rfl, rfl⟩
      · split at found
        · rename_i letter
          split at found
          · cases found
          · rename_i first
            obtain ⟨rfl, rfl⟩ := Prod.mk.inj (Option.some.inj found)
            exact ⟨.copper, letter, Bool.not_eq_true _ ▸ first, rfl, rfl⟩
        · cases found
  · rintro ⟨denomination, rfl, first, rfl, rfl⟩
    cases denomination with
    | gold =>
        have first : state.hadG = false := first
        simp [moneyUnit, Denomination.letter, first, Denomination.worth, MoneyState.mark]
    | silver =>
        have first : state.hadS = false := first
        simp [moneyUnit, Denomination.letter, first, Denomination.worth, MoneyState.mark]
    | copper =>
        have first : state.hadC = false := first
        simp [moneyUnit, Denomination.letter, first, Denomination.worth, MoneyState.mark]

/-- A token that is accepted is a new coin whose amount has 32 bits. -/
theorem moneyToken_eq_some {state next : MoneyState} {token : List Char}
    : moneyToken state token = some next
      ↔ ∃ coin, ReadsAs token coin ∧ coin.2 < 2 ^ 32 ∧ state.had coin.1 = false
          ∧ next = { state.mark coin.1 with
              money := state.money + BitVec.ofNat 32 (coin.1.worth * coin.2) } := by
  unfold moneyToken
  simp only [Option.bind_eq_bind, Option.bind_eq_some_iff, Option.pure_def, Option.some_inj]
  constructor
  · rintro ⟨c, last, ⟨unit, marked⟩, own, amount, number, rfl⟩
    obtain ⟨denomination, rfl, first, rfl, rfl⟩ := moneyUnit_eq_some.mp own
    obtain ⟨some_, digits, small, rfl⟩ := stringToUInt32_eq_some.mp number
    have whole : token = token.dropLast ++ [denomination.letter] :=
      (List.dropLast_append_getLast? _ last).symm
    refine ⟨(denomination, Nat.ofDigitChars 10 token.dropLast 0),
      ⟨token.dropLast, whole, some_, digits, rfl⟩, small, first, ?_⟩
    rw [BitVec.ofNat_mul, MoneyState.money_mark]
  · rintro ⟨coin, ⟨digits, rfl, some_, all, value⟩, small, first, rfl⟩
    refine ⟨coin.1.letter, List.getLast?_concat, (_, _),
      moneyUnit_eq_some.mpr ⟨coin.1, rfl, first, rfl, rfl⟩, BitVec.ofNat 32 coin.2, ?_, ?_⟩
    · rw [List.dropLast_concat]
      exact stringToUInt32_eq_some.mpr ⟨some_, all, by rwa [value], by rw [value]⟩
    · rw [BitVec.ofNat_mul, MoneyState.money_mark]

/-- The tokens that are accepted are different coins, and their worth is added in 32 bits.
Witness: induction on the tokens; a coin that was read is marked.
-/
theorem foldlM_moneyToken {tokens : List (List Char)} {state : MoneyState} {money : BitVec 32}
    : (tokens.foldlM moneyToken state).map MoneyState.money = some money
      ↔ ∃ coins, List.Forall₂ ReadsAs tokens coins ∧ (∀ coin ∈ coins, coin.2 < 2 ^ 32)
          ∧ (∀ coin ∈ coins, state.had coin.1 = false) ∧ (coins.map Prod.fst).Nodup
          ∧ money = state.money + BitVec.ofNat 32 (worth coins) := by
  induction tokens generalizing state with
  | nil =>
      constructor
      · intro same
        obtain rfl := Option.some.inj same
        exact ⟨[], .nil, by simp, by simp, .nil, (BitVec.add_zero _).symm⟩
      · rintro ⟨coins, all, -, -, -, rfl⟩
        cases all
        exact congrArg some (BitVec.add_zero _).symm
  | cons token rest ih =>
      rw [List.foldlM_cons, Option.bind_eq_bind, Option.map_bind, Option.bind_eq_some_iff]
      constructor
      · rintro ⟨next, first, later⟩
        obtain ⟨coin, reads, small, new, rfl⟩ := moneyToken_eq_some.mp first
        obtain ⟨coins, all, bounded, fresh, once, rfl⟩ := ih.mp later
        have others (other : Denomination × Nat) (member : other ∈ coins)
            : other.1 ≠ coin.1 ∧ state.had other.1 = false := by
          have marked : (state.mark coin.1).had other.1 = false := fresh other member
          rwa [MoneyState.had_mark, Bool.or_eq_false_iff, decide_eq_false_iff_not] at marked
        refine ⟨coin :: coins, .cons reads all, List.forall_mem_cons.mpr ⟨small, bounded⟩,
          List.forall_mem_cons.mpr ⟨new, fun other member => (others other member).2⟩,
          List.nodup_cons.mpr ⟨fun again => ?_, once⟩, ?_⟩
        · obtain ⟨other, member, same⟩ := List.mem_map.mp again
          exact (others other member).1 same
        · unfold worth
          rw [List.map_cons, List.sum_cons, BitVec.ofNat_add, ← BitVec.add_assoc]
      · rintro ⟨coins, all, bounded, fresh, once, rfl⟩
        cases all with
        | @cons _ coin _ coins reads all =>
            rw [List.forall_mem_cons] at bounded fresh
            rw [List.map_cons, List.nodup_cons] at once
            refine ⟨_, moneyToken_eq_some.mpr ⟨coin, reads, bounded.1, fresh.1, rfl⟩,
              ih.mpr ⟨coins, all, bounded.2, fun other member => ?_, once.2, ?_⟩⟩
            · change (state.mark coin.1).had other.1 = false
              rw [MoneyState.had_mark, fresh.2 other member, Bool.or_false,
                decide_eq_false_iff_not]
              rintro same
              exact once.1 (same ▸ List.mem_map_of_mem member)
            · unfold worth
              rw [List.map_cons, List.sum_cons, BitVec.ofNat_add, ← BitVec.add_assoc]

/-- A text says one list of coins. -/
theorem MoneyText.unique {text : List Char} {coins others : List (Denomination × Nat)}
    (first : MoneyText text coins) (second : MoneyText text others)
    : coins = others := by
  have functional : Relator.RightUnique ReadsAs := by
    rintro token coin other ⟨digits, same, -, -, value⟩ ⟨digits', same', -, -, value'⟩
    obtain ⟨rfl, letter⟩ := List.append_inj' (same.symm.trans same') rfl
    have denomination : coin.1 = other.1 := by
      revert letter
      cases coin.1 <;> cases other.1 <;> simp [Denomination.letter]
    exact Prod.ext denomination (value.symm.trans value')
  exact List.right_unique_forall₂' functional first.tokens second.tokens

/-- What is returned for a text: its worth in 32 bits, if each amount has 32 bits. -/
theorem moneyStringToMoney_eq_some {text : List Char} {money : Int}
    : moneyStringToMoney text = some money
      ↔ ∃ coins, MoneyText text coins ∧ (∀ coin ∈ coins, coin.2 < 2 ^ 32)
          ∧ money = (BitVec.ofNat 32 (worth coins)).toInt := by
  have pieces : tokenize text ' ' false = (text.splitOn ' ').filter (· ≠ []) := by
    rw [tokenize_eq]
    simp
  unfold moneyStringToMoney
  rw [pieces]
  have words : ((((text.splitOn ' ').filter (· ≠ [])).foldlM moneyToken {}).map
        (fun state => state.money.toInt))
      = ((((text.splitOn ' ').filter (· ≠ [])).foldlM moneyToken {}).map MoneyState.money).map
        BitVec.toInt := (Option.map_map BitVec.toInt MoneyState.money _).symm
  rw [words, Option.map_eq_some_iff]
  constructor
  · rintro ⟨word, found, rfl⟩
    obtain ⟨coins, all, bounded, -, once, rfl⟩ := foldlM_moneyToken.mp found
    exact ⟨coins, ⟨all, once⟩, bounded, congrArg BitVec.toInt (BitVec.zero_add _)⟩
  · rintro ⟨coins, said, bounded, rfl⟩
    have fresh (coin : Denomination × Nat) (_ : coin ∈ coins)
        : ({} : MoneyState).had coin.1 = false := by
      cases coin.1 <;> rfl
    exact ⟨_, foldlM_moneyToken.mpr ⟨coins, said.tokens, bounded, fresh, said.once, rfl⟩,
      congrArg BitVec.toInt (BitVec.zero_add _)⟩

/-- A text is refused, or what it says is returned exactly, if and only if it says no coins whose
amounts have 32 bits but whose worth does not have 31.
Witness: the products and the sum are those of the worth, reduced to 32 bits and read with a sign.
-/
theorem money_is_exact_iff (text : List Char)
    : (∀ money, moneyStringToMoney text = some money →
          ∃ coins, MoneyText text coins ∧ money = worth coins)
      ↔ ∀ coins, MoneyText text coins → (∀ coin ∈ coins, coin.2 < 2 ^ 32) →
          worth coins < 2 ^ 31 := by
  constructor
  · intro exact_ coins said bounded
    obtain ⟨same, again, value⟩ :=
      exact_ _ (moneyStringToMoney_eq_some.mpr ⟨coins, said, bounded, rfl⟩)
    rw [← said.unique again] at value
    have high := @BitVec.toInt_lt 32 (BitVec.ofNat 32 (worth coins))
    omega
  · intro small money found
    obtain ⟨coins, said, bounded, rfl⟩ := moneyStringToMoney_eq_some.mp found
    refine ⟨coins, said, ?_⟩
    have fits := small coins said bounded
    rw [BitVec.toInt_eq_toNat_cond, BitVec.toNat_ofNat, Nat.mod_eq_of_lt (by omega),
      if_pos (by omega)]

/-- A little more gold than an int32 holds is returned as a debt. -/
theorem money_overflows
    : moneyStringToMoney "214749g".toList = some (-2147477296)
      ∧ MoneyText "214749g".toList [(.gold, 214749)]
      ∧ worth [(.gold, 214749)] = 2147490000 := by
  have piece : ("214749g".toList.splitOn ' ').filter (· ≠ []) = ["214749g".toList] := by
    rw [List.splitOn_eq_singleton (by decide)]
    rfl
  refine ⟨by decide +kernel, ⟨?_, by decide⟩, rfl⟩
  rw [piece]
  have digits : ∀ c ∈ "214749".toList, c.isDigit := List.all_eq_true.mp rfl
  exact .cons ⟨"214749".toList, rfl, by decide, digits, rfl⟩ .nil

end WarheadCore.Utilities
