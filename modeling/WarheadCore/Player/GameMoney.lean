import WarheadCore.Foundation.MachineIntegers

/-! Amounts of money in gold, silver and copper, and expressions over them.
An amount is a 32-bit count of its coin. Multiplying an amount changes it, so an expression is
evaluated together with its variables.
-/

namespace WarheadCore.Player

-- Amounts

inductive Coin where
  | gold
  | silver
  | copper
deriving DecidableEq

def Coin.multiplier : Coin → BitVec 32
  | .gold => 10000#32
  | .silver => 100#32
  | .copper => 1#32

def Coin.smaller (left right : Coin) : Coin :=
  if left.multiplier ≤ right.multiplier then left else right

structure Money (coin : Coin) where
  count : BitVec 32

namespace Money

variable {coin left right : Coin}

def getCopper (money : Money coin) : BitVec 32 := money.count * coin.multiplier

def convert (target : Coin) (money : Money coin) : Money target :=
  ⟨money.getCopper / target.multiplier⟩

def add (first : Money left) (second : Money right) : Money (left.smaller right) :=
  ⟨(first.getCopper + second.getCopper) / (left.smaller right).multiplier⟩

def sub (first : Money left) (second : Money right) : Money (left.smaller right) :=
  ⟨(first.getCopper - second.getCopper) / (left.smaller right).multiplier⟩

def addAssign (money : Money coin) (other : Money right) : Money coin :=
  ⟨money.count + other.getCopper / coin.multiplier⟩

def subAssign (money other : Money coin) : Money coin :=
  ⟨money.count - other.getCopper / coin.multiplier⟩

def mulAssign (money : Money coin) (factor : BitVec 32) : Money coin := ⟨money.count - factor⟩

/-- `operator*`: the amount is changed, and a copy of it is the result. -/
def mul (money : Money coin) (factor : BitVec 32) : Money coin := ⟨money.count * factor⟩

end Money

-- Expressions

/-- An expression over variables and amounts. The operands of `+` and `-` are evaluated in either
order; the conversions and differences are those that the types admit.
-/
inductive MoneyExpr : Coin → Type where
  | named (coin : Coin) (name : Nat) : MoneyExpr coin
  | amount (coin : Coin) (count : BitVec 32) : MoneyExpr coin
  | convert {coin : Coin} (target : Coin) (convertible : target.multiplier ≤ coin.multiplier)
      (money : MoneyExpr coin) : MoneyExpr target
  | add {left right : Coin} (leftFirst : Bool) (first : MoneyExpr left)
      (second : MoneyExpr right) : MoneyExpr (left.smaller right)
  | sub {left right : Coin} (convertible : right.multiplier ≤ left.multiplier) (leftFirst : Bool)
      (first : MoneyExpr left) (second : MoneyExpr right) : MoneyExpr (left.smaller right)
  | mul {coin : Coin} (money : MoneyExpr coin) (factor : BitVec 32) : MoneyExpr coin

def MoneyVariables : Type := Coin → Nat → BitVec 32

namespace MoneyVariables

def get (vars : MoneyVariables) (coin : Coin) (name : Nat) : Money coin := ⟨vars coin name⟩

def set (vars : MoneyVariables) {coin : Coin} (name : Nat) (money : Money coin) : MoneyVariables :=
  fun other otherName =>
    if other = coin ∧ otherName = name then money.count else vars other otherName

end MoneyVariables

namespace MoneyExpr

/-- The variable that an expression is, which an operator can change. -/
def place {coin : Coin} : MoneyExpr coin → Option Nat
  | .named _ name => some name
  | _ => none

def eval {coin : Coin} : MoneyExpr coin → MoneyVariables → Money coin × MoneyVariables
  | .named coin name, vars => (vars.get coin name, vars)
  | .amount _ count, vars => (⟨count⟩, vars)
  | .convert target _ money, vars =>
      let (value, vars) := money.eval vars
      (value.convert target, vars)
  | .add true first second, vars =>
      let (left, vars) := first.eval vars
      let (right, vars) := second.eval vars
      (left.add right, vars)
  | .add false first second, vars =>
      let (right, vars) := second.eval vars
      let (left, vars) := first.eval vars
      (left.add right, vars)
  | .sub _ true first second, vars =>
      let (left, vars) := first.eval vars
      let (right, vars) := second.eval vars
      (left.sub right, vars)
  | .sub _ false first second, vars =>
      let (right, vars) := second.eval vars
      let (left, vars) := first.eval vars
      (left.sub right, vars)
  | .mul money factor, vars =>
      let (value, vars) := money.eval vars
      let product := value.mul factor
      (product,
        match money.place with
        | some name => vars.set name product
        | none => vars)

def denote {coin : Coin} (vars : MoneyVariables) : MoneyExpr coin → Int
  | .named coin name => (vars coin name).toNat * coin.multiplier.toNat
  | .amount coin count => count.toNat * coin.multiplier.toNat
  | .convert _ _ money => money.denote vars
  | .add _ first second => first.denote vars + second.denote vars
  | .sub _ _ first second => first.denote vars - second.denote vars
  | .mul money factor => money.denote vars * factor.toNat

def Everywhere (holds : ∀ {coin : Coin}, MoneyExpr coin → Prop) {coin : Coin}
    : MoneyExpr coin → Prop
  | .named coin name => holds (.named coin name)
  | .amount coin count => holds (.amount coin count)
  | .convert target convertible money =>
      holds (.convert target convertible money) ∧ money.Everywhere holds
  | .add leftFirst first second =>
      holds (.add leftFirst first second) ∧ first.Everywhere holds ∧ second.Everywhere holds
  | .sub convertible leftFirst first second =>
      holds (.sub convertible leftFirst first second) ∧ first.Everywhere holds
        ∧ second.Everywhere holds
  | .mul money factor => holds (.mul money factor) ∧ money.Everywhere holds

def Fits (vars : MoneyVariables) {coin : Coin} (money : MoneyExpr coin) : Prop :=
  0 ≤ money.denote vars ∧ money.denote vars < 0x100000000

/-- The value is what the expression denotes, and the variables are unchanged. -/
def Right (vars : MoneyVariables) {coin : Coin} (money : MoneyExpr coin) : Prop :=
  ((money.eval vars).1.getCopper.toNat : Int) = money.denote vars ∧ (money.eval vars).2 = vars

def Changes (vars : MoneyVariables) {coin : Coin} : MoneyExpr coin → Prop
  | .mul money factor => ∃ name, money.place = some name ∧ vars coin name ≠ 0 ∧ factor ≠ 1
  | _ => False

end MoneyExpr

-- Coins

variable {coin left right target : Coin} {vars : MoneyVariables}

theorem dvd_of_convertible (convertible : target.multiplier ≤ coin.multiplier)
    : target.multiplier.toNat ∣ coin.multiplier.toNat := by
  revert convertible
  cases target <;> cases coin <;> decide

theorem smaller_le_left (left right : Coin)
    : (left.smaller right).multiplier ≤ left.multiplier := by
  cases left <;> cases right <;> decide

theorem smaller_le_right (left right : Coin)
    : (left.smaller right).multiplier ≤ right.multiplier := by
  cases left <;> cases right <;> decide

/-- An amount that is counted in a coin is worth what was counted, where nothing is left over. -/
theorem getCopper_div {copper : BitVec 32} (whole : coin.multiplier.toNat ∣ copper.toNat)
    : (⟨copper / coin.multiplier⟩ : Money coin).getCopper = copper := by
  refine BitVec.eq_of_toNat_eq ?_
  rw [Money.getCopper, BitVec.toNat_mul, BitVec.toNat_udiv, Nat.div_mul_cancel whole]
  exact Nat.mod_eq_of_lt copper.isLt

theorem getCopper_sub (count other : BitVec 32)
    : (⟨count - other⟩ : Money coin).getCopper
      = (⟨count⟩ : Money coin).getCopper - (⟨other⟩ : Money coin).getCopper := by
  change (count - other) * coin.multiplier = count * coin.multiplier - other * coin.multiplier
  rw [BitVec.mul_comm, BitVec.mul_sub, BitVec.mul_comm count, BitVec.mul_comm other]

/-- Every expression denotes a whole number of its coins, by induction on the expression. -/
theorem MoneyExpr.dvd_denote (money : MoneyExpr coin)
    : (coin.multiplier.toNat : Int) ∣ money.denote vars := by
  induction money with
  | named => exact dvd_mul_left _ _
  | amount => exact dvd_mul_left _ _
  | convert target convertible money ih =>
      exact (Int.natCast_dvd_natCast.mpr (dvd_of_convertible convertible)).trans ih
  | @add left right leftFirst first second ih ih' =>
      have toLeft := dvd_of_convertible (smaller_le_left left right)
      have toRight := dvd_of_convertible (smaller_le_right left right)
      exact Int.dvd_add ((Int.natCast_dvd_natCast.mpr toLeft).trans ih)
        ((Int.natCast_dvd_natCast.mpr toRight).trans ih')
  | @sub left right convertible leftFirst first second ih ih' =>
      have toLeft := dvd_of_convertible (smaller_le_left left right)
      have toRight := dvd_of_convertible (smaller_le_right left right)
      exact Int.dvd_sub ((Int.natCast_dvd_natCast.mpr toLeft).trans ih)
        ((Int.natCast_dvd_natCast.mpr toRight).trans ih')
  | mul money factor ih => exact ih.mul_right _

/-- Counting copper in a smaller coin leaves nothing over. -/
theorem getCopper_div_of_denote {copper : BitVec 32} {money : MoneyExpr coin}
    (value : (copper.toNat : Int) = money.denote vars)
    : (⟨copper / coin.multiplier⟩ : Money coin).getCopper = copper := by
  refine getCopper_div (Int.natCast_dvd_natCast.mp ?_)
  rw [value]
  exact money.dvd_denote

-- Expressions whose parts are right

namespace MoneyExpr

theorem Right.eval {money : MoneyExpr coin} (right : Right vars money)
    : ∃ value, money.eval vars = (value, vars)
        ∧ (value.getCopper.toNat : Int) = money.denote vars :=
  ⟨_, Prod.ext rfl right.2, right.1⟩

theorem Right.of_eval {money : MoneyExpr coin} {value : Money coin}
    (evaluated : money.eval vars = (value, vars))
    (worth : (value.getCopper.toNat : Int) = money.denote vars)
    : Right vars money := by
  unfold Right
  rw [evaluated]
  exact ⟨worth, rfl⟩

/-- Counts that fit are worth what they should be. -/
theorem getCopper_of_fits {count : BitVec 32}
    (fits : ((count.toNat * coin.multiplier.toNat : Nat) : Int) < 0x100000000)
    : ((⟨count⟩ : Money coin).getCopper.toNat : Int) = count.toNat * coin.multiplier.toNat := by
  have bounded : count.toNat * coin.multiplier.toNat < 2 ^ 32 := by omega
  change ((count * coin.multiplier).toNat : Int) = _
  rw [BitVec.toNat_mul, Nat.mod_eq_of_lt bounded, Int.natCast_mul]

theorem right_named {name : Nat} (fits : Fits vars (.named coin name))
    : Right vars (.named coin name) :=
  .of_eval rfl (getCopper_of_fits (by rw [Int.natCast_mul]; exact fits.2))

theorem right_amount {count : BitVec 32} (fits : Fits vars (.amount coin count))
    : Right vars (.amount coin count) :=
  .of_eval rfl (getCopper_of_fits (by rw [Int.natCast_mul]; exact fits.2))

theorem right_convert {convertible : target.multiplier ≤ coin.multiplier} {money : MoneyExpr coin}
    (part : Right vars money)
    : Right vars (.convert target convertible money) := by
  obtain ⟨value, evaluated, worth⟩ := part.eval
  have same : (value.convert target).getCopper = value.getCopper :=
    @getCopper_div_of_denote _ vars _ (.convert target convertible money) worth
  have done : (MoneyExpr.convert target convertible money).eval vars
      = (value.convert target, vars) := by
    simp only [eval, evaluated]
  exact .of_eval done (same ▸ worth)

theorem right_add {leftFirst : Bool} {first : MoneyExpr left} {second : MoneyExpr right}
    (fits : Fits vars (.add leftFirst first second)) (part : Right vars first)
    (part' : Right vars second)
    : Right vars (.add leftFirst first second) := by
  obtain ⟨value, evaluated, worth⟩ := part.eval
  obtain ⟨value', evaluated', worth'⟩ := part'.eval
  have both : ((value.getCopper + value'.getCopper).toNat : Int)
      = (MoneyExpr.add leftFirst first second).denote vars := by
    unfold Fits at fits
    rw [denote] at fits ⊢
    rw [BitVec.toNat_add]
    omega
  have same : (value.add value').getCopper = value.getCopper + value'.getCopper :=
    getCopper_div_of_denote both
  have done : (MoneyExpr.add leftFirst first second).eval vars = (value.add value', vars) := by
    cases leftFirst <;> simp only [eval, evaluated, evaluated']
  exact .of_eval done (same ▸ both)

theorem right_sub {convertible : right.multiplier ≤ left.multiplier} {leftFirst : Bool}
    {first : MoneyExpr left} {second : MoneyExpr right}
    (fits : Fits vars (.sub convertible leftFirst first second)) (part : Right vars first)
    (part' : Right vars second)
    : Right vars (.sub convertible leftFirst first second) := by
  obtain ⟨value, evaluated, worth⟩ := part.eval
  obtain ⟨value', evaluated', worth'⟩ := part'.eval
  have both : ((value.getCopper - value'.getCopper).toNat : Int)
      = (MoneyExpr.sub convertible leftFirst first second).denote vars := by
    unfold Fits at fits
    rw [denote] at fits ⊢
    rw [BitVec.toNat_sub]
    omega
  have same : (value.sub value').getCopper = value.getCopper - value'.getCopper :=
    getCopper_div_of_denote both
  have done : (MoneyExpr.sub convertible leftFirst first second).eval vars
      = (value.sub value', vars) := by
    cases leftFirst <;> simp only [eval, evaluated, evaluated']
  exact .of_eval done (same ▸ both)

/-- A product is worth what it should be. -/
theorem getCopper_mul {value : Money coin} {money : MoneyExpr coin} {factor : BitVec 32}
    (fits : Fits vars (.mul money factor))
    (worth : (value.getCopper.toNat : Int) = money.denote vars)
    : ((value.mul factor).getCopper.toNat : Int) = (MoneyExpr.mul money factor).denote vars := by
  unfold Fits at fits
  rw [denote, ← worth] at fits ⊢
  have same : (value.mul factor).getCopper = value.getCopper * factor := by
    rw [Money.getCopper, Money.getCopper, Money.mul, BitVec.mul_assoc, BitVec.mul_assoc,
      BitVec.mul_comm factor]
  rw [same, BitVec.toNat_mul, Nat.mod_eq_of_lt (by exact_mod_cast fits.2), Int.natCast_mul]

theorem set_eq_self {name : Nat} {money : Money coin}
    : vars.set name money = vars ↔ money.count = vars coin name := by
  constructor
  · intro same
    have here := congrFun (congrFun same coin) name
    rwa [MoneyVariables.set, if_pos ⟨rfl, rfl⟩] at here
  · intro same
    funext other otherName
    unfold MoneyVariables.set
    split
    · rename_i here
      rw [same, here.1, here.2]
    · rfl

/-- A count changes unless it is zero or multiplied by one, where the product fits. -/
theorem mul_eq_self {count factor : BitVec 32} (fits : count.toNat * factor.toNat < 0x100000000)
    : count * factor = count ↔ ¬(count ≠ 0 ∧ factor ≠ 1) := by
  rw [← BitVec.toNat_inj, BitVec.toNat_mul, Nat.mod_eq_of_lt fits, not_and_or, not_ne_iff,
    not_ne_iff, ← BitVec.toNat_inj, ← BitVec.toNat_inj]
  rcases Nat.eq_zero_or_pos count.toNat with zero | positive
  · rw [zero, Nat.zero_mul]
    exact iff_of_true rfl (.inl rfl)
  · rw [Nat.mul_eq_left positive.ne']
    exact (or_iff_right positive.ne').symm

/-- A product is right unless it changes a variable. -/
theorem right_mul_iff {money : MoneyExpr coin} {factor : BitVec 32}
    (fits : Fits vars (.mul money factor)) (part : Right vars money)
    : Right vars (.mul money factor) ↔ ¬Changes vars (.mul money factor) := by
  obtain ⟨value, evaluated, worth⟩ := part.eval
  have product := getCopper_mul fits worth
  cases place_ : money.place with
  | none =>
      have done : (MoneyExpr.mul money factor).eval vars = (value.mul factor, vars) := by
        simp only [eval, evaluated, place_]
      refine iff_of_true (.of_eval done product) ?_
      rintro ⟨name, there, -⟩
      rw [place_] at there
      cases there
  | some name =>
      cases money with
      | named coin name' =>
          obtain rfl := Option.some.inj place_
          obtain rfl : vars.get coin name' = value := congrArg Prod.fst evaluated
          have bounded : (vars coin name').toNat * factor.toNat < 0x100000000 := by
            have positive : 0 < coin.multiplier.toNat := by cases coin <;> decide
            have whole : (vars coin name').toNat * coin.multiplier.toNat * factor.toNat
                < 0x100000000 := by
              have bounded := fits.2
              rw [denote, denote] at bounded
              exact_mod_cast bounded
            exact (Nat.mul_le_mul_right _ (Nat.le_mul_of_pos_right _ positive)).trans_lt whole
          have changed : Changes vars (.mul (.named coin name') factor)
              ↔ vars coin name' ≠ 0 ∧ factor ≠ 1 := by
            unfold Changes place
            simp
          rw [changed, ← mul_eq_self bounded]
          exact (and_iff_right product).trans set_eq_self
      | amount | convert | add | sub | mul => cases place_

theorem Everywhere.here {holds : ∀ {coin : Coin}, MoneyExpr coin → Prop} {money : MoneyExpr coin}
    (everywhere : money.Everywhere holds)
    : holds money := by
  cases money with
  | named | amount => exact everywhere
  | convert | add | sub | mul => exact everywhere.1

/-- The parts of an expression are right if and only if none of them changes a variable.
Witness: induction on the expression, with one lemma for each operator.
-/
theorem everywhere_right_iff {money : MoneyExpr coin} (fits : money.Everywhere (@Fits vars))
    : money.Everywhere (@Right vars) ↔ money.Everywhere (fun part => ¬Changes vars part) := by
  induction money with
  | named coin name => exact iff_of_true (right_named fits) (fun changes => changes)
  | amount coin count => exact iff_of_true (right_amount fits) (fun changes => changes)
  | convert target convertible money ih =>
      constructor
      · rintro ⟨-, part⟩
        exact ⟨fun changes => changes, (ih fits.2).mp part⟩
      · rintro ⟨-, part⟩
        have right := (ih fits.2).mpr part
        exact ⟨right_convert right.here, right⟩
  | add leftFirst first second ih ih' =>
      constructor
      · rintro ⟨-, part, part'⟩
        exact ⟨fun changes => changes, (ih fits.2.1).mp part, (ih' fits.2.2).mp part'⟩
      · rintro ⟨-, part, part'⟩
        have right := (ih fits.2.1).mpr part
        have right' := (ih' fits.2.2).mpr part'
        exact ⟨right_add fits.1 right.here right'.here, right, right'⟩
  | sub convertible leftFirst first second ih ih' =>
      constructor
      · rintro ⟨-, part, part'⟩
        exact ⟨fun changes => changes, (ih fits.2.1).mp part, (ih' fits.2.2).mp part'⟩
      · rintro ⟨-, part, part'⟩
        have right := (ih fits.2.1).mpr part
        have right' := (ih' fits.2.2).mpr part'
        exact ⟨right_sub fits.1 right.here right'.here, right, right'⟩
  | mul money factor ih =>
      constructor
      · rintro ⟨product, part⟩
        exact ⟨(right_mul_iff fits.1 part.here).mp product, (ih fits.2).mp part⟩
      · rintro ⟨stays, part⟩
        have right := (ih fits.2).mpr part
        exact ⟨(right_mul_iff fits.1 right.here).mpr stays, right⟩

end MoneyExpr

-- Statements

/-- An expression, or an assignment to a variable. -/
inductive MoneyStatement where
  | expression {coin : Coin} (money : MoneyExpr coin)
  | addAssign (coin : Coin) (name : Nat) {right : Coin}
      (convertible : coin.multiplier ≤ right.multiplier) (money : MoneyExpr right)
  | subAssign (coin : Coin) (name : Nat) {right : Coin}
      (convertible : coin.multiplier ≤ right.multiplier) (money : MoneyExpr right)
  | mulAssign (coin : Coin) (name : Nat) (factor : BitVec 32)

namespace MoneyStatement

/-- The right side of an assignment is evaluated first; `operator-=` takes its own coin. -/
def exec : MoneyStatement → MoneyVariables → MoneyVariables
  | .expression money, vars => (money.eval vars).2
  | .addAssign coin name _ money, vars =>
      let (value, vars) := money.eval vars
      vars.set name ((vars.get coin name).addAssign value)
  | .subAssign coin name _ money, vars =>
      let (value, vars) := money.eval vars
      vars.set name ((vars.get coin name).subAssign (value.convert coin))
  | .mulAssign coin name factor, vars =>
      vars.set name ((vars.get coin name).mulAssign factor)

/-- A variable becomes worth some copper, and the other ones stay as they are. -/
def Becomes (coin : Coin) (name : Nat) (copper : Int) (vars after : MoneyVariables) : Prop :=
  ((after.get coin name).getCopper.toNat : Int) = copper
    ∧ ∀ other otherName, ¬(other = coin ∧ otherName = name) →
      after other otherName = vars other otherName

def worth (vars : MoneyVariables) (coin : Coin) (name : Nat) : Int :=
  (MoneyExpr.named coin name).denote vars

def Fits (vars : MoneyVariables) : MoneyStatement → Prop
  | .expression money => money.Everywhere (@MoneyExpr.Fits vars)
  | .addAssign coin name _ money =>
      money.Everywhere (@MoneyExpr.Fits vars)
        ∧ worth vars coin name + money.denote vars < 0x100000000
  | .subAssign coin name _ money =>
      money.Everywhere (@MoneyExpr.Fits vars) ∧ worth vars coin name < 0x100000000
        ∧ money.denote vars ≤ worth vars coin name
  | .mulAssign coin name factor =>
      worth vars coin name < 0x100000000 ∧ worth vars coin name * factor.toNat < 0x100000000

/-- Parts of expressions are right, and an assignment makes the sum, difference or product. -/
def Right (vars : MoneyVariables) : MoneyStatement → Prop
  | .expression money => money.Everywhere (@MoneyExpr.Right vars)
  | .addAssign coin name convertible money =>
      money.Everywhere (@MoneyExpr.Right vars)
        ∧ Becomes coin name (worth vars coin name + money.denote vars) vars
          ((MoneyStatement.addAssign coin name convertible money).exec vars)
  | .subAssign coin name convertible money =>
      money.Everywhere (@MoneyExpr.Right vars)
        ∧ Becomes coin name (worth vars coin name - money.denote vars) vars
          ((MoneyStatement.subAssign coin name convertible money).exec vars)
  | .mulAssign coin name factor =>
      Becomes coin name (worth vars coin name * factor.toNat) vars
        ((MoneyStatement.mulAssign coin name factor).exec vars)

def period : Coin → Nat
  | .gold => 2 ^ 28
  | .silver => 2 ^ 30
  | .copper => 2 ^ 32

/-- What must be so for a statement to be right: no variable is changed in an expression, and the
difference that `operator*=` makes happens to be the product modulo `2 ^ 32`.
-/
def Harmless (vars : MoneyVariables) : MoneyStatement → Prop
  | .expression money | .addAssign _ _ _ money | .subAssign _ _ _ money =>
      money.Everywhere (fun part => ¬MoneyExpr.Changes vars part)
  | .mulAssign coin name factor =>
      (vars coin name = 0 ∧ period coin ∣ factor.toNat)
        ∨ (coin = .copper ∧ ((vars coin name).toNat + 1) * factor.toNat
          = (vars coin name).toNat + 2 ^ 32)

theorem becomes_set {name : Nat} {money : Money coin} {copper : Int}
    : Becomes coin name copper vars (vars.set name money)
      ↔ (money.getCopper.toNat : Int) = copper := by
  have here : (vars.set name money).get coin name = money := by
    unfold MoneyVariables.get MoneyVariables.set
    rw [if_pos ⟨rfl, rfl⟩]
  unfold Becomes
  rw [here]
  refine and_iff_left (fun other otherName apart => ?_)
  rw [MoneyVariables.set, if_neg apart]

theorem worth_eq {name : Nat} (fits : worth vars coin name < 0x100000000)
    : ((vars.get coin name).getCopper.toNat : Int) = worth vars coin name :=
  MoneyExpr.getCopper_of_fits (by rw [Int.natCast_mul]; exact fits)

/-- What is added is counted in the coin of the variable, and nothing is left over. -/
theorem addAssign_right {name : Nat} {convertible : coin.multiplier ≤ right.multiplier}
    {money : MoneyExpr right} (fits : Fits vars (.addAssign coin name convertible money))
    (part : money.Right vars)
    : Becomes coin name (worth vars coin name + money.denote vars) vars
        ((MoneyStatement.addAssign coin name convertible money).exec vars) := by
  obtain ⟨value, evaluated, denotes⟩ := part.eval
  obtain ⟨inside, sum⟩ := fits
  have nonneg := inside.here.1
  have own := @worth_eq coin vars name (by omega)
  have whole : (⟨value.getCopper / coin.multiplier⟩ : Money coin).getCopper = value.getCopper :=
    @getCopper_div_of_denote _ vars _ (.convert coin convertible money) denotes
  have copper : ((vars.get coin name).addAssign value).getCopper
      = (vars.get coin name).getCopper + value.getCopper := by
    rw [← whole]
    exact BitVec.add_mul
  rw [exec]
  simp only [evaluated]
  rw [becomes_set, copper, BitVec.toNat_add, ← own, ← denotes]
  omega

theorem subAssign_right {name : Nat} {convertible : coin.multiplier ≤ right.multiplier}
    {money : MoneyExpr right} (fits : Fits vars (.subAssign coin name convertible money))
    (part : money.Right vars)
    : Becomes coin name (worth vars coin name - money.denote vars) vars
        ((MoneyStatement.subAssign coin name convertible money).exec vars) := by
  obtain ⟨value, evaluated, denotes⟩ := part.eval
  obtain ⟨-, bounded, enough⟩ := fits
  have own := @worth_eq coin vars name bounded
  have whole : (value.convert coin).getCopper = value.getCopper :=
    @getCopper_div_of_denote _ vars _ (.convert coin convertible money) denotes
  have copper : ((vars.get coin name).subAssign (value.convert coin)).getCopper
      = (vars.get coin name).getCopper - value.getCopper := by
    have twice : (⟨(value.convert coin).getCopper / coin.multiplier⟩ : Money coin).getCopper
        = value.getCopper := by
      rw [whole]
      exact whole
    rw [← twice]
    exact getCopper_sub _ _
  rw [exec]
  simp only [evaluated]
  rw [becomes_set, copper, BitVec.toNat_sub, ← own, ← denotes]
  omega

/-- A zero amount stays one when whole periods are taken from it. -/
theorem sub_eq_zero_iff {times : Nat} (timesLt : times < 2 ^ 32)
    : (2 ^ 32 - times) % 2 ^ 32 * coin.multiplier.toNat % 2 ^ 32 = 0 ↔ period coin ∣ times := by
  have whole : period coin * (2 ^ 32).gcd coin.multiplier.toNat = 2 ^ 32 := by cases coin <;> decide
  have divides : period coin ∣ 2 ^ 32 := ⟨_, whole.symm⟩
  rw [← Nat.dvd_iff_mod_eq_zero, ← Nat.dvd_mul_gcd_iff_dvd_mul]
  nth_rewrite 1 [← whole]
  rw [Nat.mul_dvd_mul_iff_right (by cases coin <;> decide), Nat.dvd_mod_iff divides,
    Nat.dvd_sub_iff_right timesLt.le divides]

/-- When the difference of a count and a factor is their product.
Witness: in gold and silver a wrapped difference is no multiple.
-/
theorem sub_eq_mul_iff {count times : Nat} (some_ : 1 ≤ count) (timesLt : times < 2 ^ 32)
    (countFits : count * coin.multiplier.toNat < 2 ^ 32)
    (fits : count * times * coin.multiplier.toNat < 2 ^ 32)
    : (2 ^ 32 - times + count) % 2 ^ 32 * coin.multiplier.toNat % 2 ^ 32
        = count * times * coin.multiplier.toNat
      ↔ coin = .copper ∧ (count + 1) * times = count + 2 ^ 32 := by
  have most := Nat.le_mul_of_pos_left times some_
  have positive : 0 < coin.multiplier.toNat := by cases coin <;> decide
  -- Neither 100 nor 10000 divides `2 ^ 32`.
  have divides : coin.multiplier.toNat ∣ 2 ^ 32 → coin = .copper := by cases coin <;> decide
  have bounded := (Nat.le_mul_of_pos_right count positive).trans_lt countFits
  have inside := (Nat.le_mul_of_pos_right (count * times) positive).trans_lt fits
  rw [Nat.succ_mul]
  rcases Nat.lt_or_ge count times with below | above
  · have wrapped : (2 ^ 32 - times + count) % 2 ^ 32 = 2 ^ 32 - (times - count) := by omega
    have missing := Nat.mul_pos (Nat.sub_pos_of_lt below) positive
    have less := (Nat.mul_le_mul_right _ ((Nat.sub_le times count).trans most)).trans_lt fits
    have rest : (2 ^ 32 - (times - count)) * coin.multiplier.toNat
        = 2 ^ 32 - (times - count) * coin.multiplier.toNat
          + 2 ^ 32 * (coin.multiplier.toNat - 1) := by
      rw [Nat.sub_mul]
      omega
    rw [wrapped, rest, Nat.add_mul_mod_self_left, Nat.mod_eq_of_lt (Nat.sub_lt (by decide) missing)]
    constructor
    · intro same
      have whole : (count * times + (times - count)) * coin.multiplier.toNat = 2 ^ 32 := by
        rw [Nat.add_mul, ← same, Nat.sub_add_cancel less.le]
      obtain rfl := divides (Dvd.intro_left _ whole)
      change _ * 1 = _ at whole
      exact ⟨rfl, by omega⟩
    · rintro ⟨rfl, same⟩
      change _ - _ * 1 = _ * 1
      omega
  · have wrapped : (2 ^ 32 - times + count) % 2 ^ 32 = count - times := by omega
    have less := (Nat.mul_le_mul_right _ (Nat.sub_le count times)).trans_lt countFits
    rw [wrapped, Nat.mod_eq_of_lt less]
    refine iff_of_false (fun same => ?_) (by omega)
    have agree := Nat.eq_of_mul_eq_mul_right positive same
    rcases Nat.eq_zero_or_pos times with rfl | pos
    · omega
    · have more := Nat.le_mul_of_pos_right count pos
      omega

/-- `operator*=` subtracts, which is seldom right. -/
theorem mulAssign_right_iff {name : Nat} {factor : BitVec 32}
    (fits : Fits vars (.mulAssign coin name factor))
    : Becomes coin name (worth vars coin name * factor.toNat) vars
        ((MoneyStatement.mulAssign coin name factor).exec vars)
      ↔ Harmless vars (.mulAssign coin name factor) := by
  have subtracted : ((vars.get coin name).mulAssign factor).getCopper.toNat
      = (2 ^ 32 - factor.toNat + (vars coin name).toNat) % 2 ^ 32 * coin.multiplier.toNat
        % 2 ^ 32 := by
    change (((vars coin name) - factor) * coin.multiplier).toNat = _
    rw [BitVec.toNat_mul, BitVec.toNat_sub]
  have product : worth vars coin name * factor.toNat
      = (((vars coin name).toNat * factor.toNat * coin.multiplier.toNat : Nat) : Int) := by
    change ((vars coin name).toNat * coin.multiplier.toNat : Int) * factor.toNat = _
    push_cast
    ring
  obtain ⟨countFits, fits⟩ := fits
  rw [product] at fits
  change ((vars coin name).toNat * coin.multiplier.toNat : Int) < _ at countFits
  rw [exec, becomes_set, subtracted, product, Int.natCast_inj]
  change _ ↔ (vars coin name = 0 ∧ _) ∨ _
  rcases Nat.eq_zero_or_pos (vars coin name).toNat with zero | some_
  · have none_ : vars coin name = 0 := BitVec.eq_of_toNat_eq zero
    rw [zero, Nat.zero_mul, Nat.zero_mul, Nat.add_zero, sub_eq_zero_iff factor.isLt,
      and_iff_right none_]
    refine (or_iff_left ?_).symm
    have small := factor.isLt
    omega
  · have not_ : vars coin name ≠ 0 := by
      rintro none_
      rw [none_] at some_
      exact absurd some_ (lt_irrefl _)
    rw [sub_eq_mul_iff some_ factor.isLt (by exact_mod_cast countFits) (by exact_mod_cast fits)]
    exact (or_iff_right (fun none_ => not_ none_.1)).symm

/-- A statement over money is right exactly where it is harmless. -/
theorem right_iff_harmless {statement : MoneyStatement} (fits : statement.Fits vars)
    : statement.Right vars ↔ statement.Harmless vars := by
  cases statement with
  | expression money => exact MoneyExpr.everywhere_right_iff fits
  | addAssign coin name convertible money =>
      have parts := MoneyExpr.everywhere_right_iff fits.1
      exact ⟨fun right => parts.mp right.1,
        fun harmless => ⟨parts.mpr harmless, addAssign_right fits (parts.mpr harmless).here⟩⟩
  | subAssign coin name convertible money =>
      have parts := MoneyExpr.everywhere_right_iff fits.1
      exact ⟨fun right => parts.mp right.1,
        fun harmless => ⟨parts.mpr harmless, subAssign_right fits (parts.mpr harmless).here⟩⟩
  | mulAssign coin name factor => exact mulAssign_right_iff fits

def tens : MoneyVariables := fun _ _ => 10#32

/-- Two gold are added to a variable of silver. -/
theorem right_iff_harmless_applied
    : (MoneyStatement.addAssign .silver 0 (by decide) (.amount .gold 2#32)).Right tens
      ↔ (MoneyStatement.addAssign .silver 0 (by decide) (.amount .gold 2#32)).Harmless tens :=
  right_iff_harmless ⟨by unfold MoneyExpr.Everywhere MoneyExpr.Fits; decide, by decide⟩

/-- Ten gold times two are eight gold. -/
theorem doubled_gold_is_less
    : ¬ ∀ (vars : MoneyVariables) (statement : MoneyStatement),
        statement.Fits vars → statement.Right vars := by
  intro law
  have right := law tens (.mulAssign .gold 0 2#32) ⟨by decide, by decide⟩
  exact absurd right.1 (by decide)

end MoneyStatement

end WarheadCore.Player
