import Mathlib.Algebra.BigOperators.Group.List.Basic
import Mathlib.Algebra.GroupWithZero.Nat
import Mathlib.Data.List.DropRight

/-! Durations as texts and back. The texts with names of units can be told apart, and the short ones
be read; the numeric ones lose the places of the units that are zero.
-/

namespace WarheadCore.Utilities

inductive TimeFormat where
  | fullText
  | shortText
  | numeric
deriving DecidableEq

-- Reading

structure TimeScan where
  secs : Nat := 0
  buffer : Nat := 0

/-- A count of seconds; what overflows 64 bits with a sign is undefined. -/
def seconds (count : Nat) : Option Nat := if count < 2 ^ 63 then some count else none

def timeMultiplier : Char → Option Nat
  | 'd' => some 86400
  | 'h' => some 3600
  | 'm' => some 60
  | 's' => some 1
  | _ => none

/-- The loop of TimeStringTo; a bad format is no time at all. -/
def timeStringToFrom : TimeScan → List Char → Option Nat
  | scan, [] => some scan.secs
  | scan, itr :: rest =>
      if itr = ' ' then timeStringToFrom scan rest
      else if itr.isDigit then do
        let buffer ← seconds (scan.buffer * 10)
        let buffer ← seconds (buffer + (itr.toNat - '0'.toNat))
        timeStringToFrom { scan with buffer } rest
      else
        match timeMultiplier itr with
        | none => some 0
        | some multiplier => do
            let buffer ← seconds (scan.buffer * multiplier)
            let secs ← seconds (scan.secs + buffer)
            timeStringToFrom { secs, buffer := 0 } rest

def timeStringTo (timestring : List Char) : Option Nat :=
  if timestring.head? = some '-' then some (2 ^ 31 - 1) else timeStringToFrom {} timestring

-- Writing

/-- The text so far, the number of units in it, and whether there is one. -/
structure TimeText where
  out : List Char := []
  count : Nat := 0
  isFirst : Bool := false

def twoDigits (number : Nat) : List Char :=
  List.replicate (2 - (Nat.toDigits 10 number).length) '0' ++ Nat.toDigits 10 number

def addOutNumerlic (outCount : Nat) (text : TimeText) (time : BitVec 64) : TimeText :=
  if text.count ≥ outCount then text
  else if !text.isFirst then
    { out := text.out ++ Nat.toDigits 10 time.toNat ++ [':']
      count := text.count + 1
      isFirst := true }
  else { text with out := text.out ++ twoDigits time.toNat ++ [':'], count := text.count + 1 }

def addOut (timeFormat : TimeFormat) (outCount : Nat) (text : TimeText) (timeCount : BitVec 32)
    (shortText fullText1 fullText : List Char)
    : TimeText :=
  if text.count ≥ outCount then text
  else
    let name :=
      match timeFormat with
      | .shortText => shortText
      | .fullText => if timeCount = 1 then fullText1 else fullText
      | .numeric => "<Unknown time format>".toList
    { text with
      out := text.out ++ Nat.toDigits 10 timeCount.toNat ++ name
      count := text.count + 1 }

/-- The units of a text, from the largest one on. -/
inductive TimeUnit where
  | days
  | hours
  | minutes
  | secs
  | millisecs
  | microsecs
deriving DecidableEq

namespace TimeUnit

def all : List TimeUnit := [days, hours, minutes, secs, millisecs, microsecs]

/-- The value of a unit in a count of microseconds, as the unsigned and signed divisions give it. -/
def value (durationTime : BitVec 64) : TimeUnit → BitVec 64
  | days => durationTime / 86400000000
  | hours => durationTime / 3600000000 % 24
  | minutes => durationTime / 60000000 % 60
  | secs => durationTime / 1000000 % 60
  | millisecs => durationTime / 1000 % 1000
  | microsecs => durationTime.srem 1000

def shortText : TimeUnit → String
  | days => "d "
  | hours => "h "
  | minutes => "m "
  | secs => "s "
  | millisecs => "ms "
  | microsecs => "us "

def fullText1 : TimeUnit → String
  | days => " Day "
  | hours => " Hour "
  | minutes => " Minute "
  | secs => " Second "
  | millisecs => " Millisecond "
  | microsecs => " Microsecond "

def fullText : TimeUnit → String
  | days => " Days "
  | hours => " Hours "
  | minutes => " Minutes "
  | secs => " Seconds "
  | millisecs => " Milliseconds "
  | microsecs => " Microseconds "

end TimeUnit

def trimRight (str : List Char) : List Char := str.rdropWhile (· = ' ')

/-- Each unit that is not zero is added, in order; the last separator is deleted. -/
def toTimeString (durationTime : BitVec 64) (outCount : Nat) (timeFormat : TimeFormat) : List Char :=
  if timeFormat = .numeric then
    let text := TimeUnit.all.foldl (fun text unit =>
      let time := unit.value durationTime
      if time ≠ 0 then addOutNumerlic outCount text time else text) {}
    text.out.dropLast
  else
    let text := TimeUnit.all.foldl (fun text unit =>
      let time := unit.value durationTime
      if time ≠ 0 then
        addOut timeFormat outCount text (time.setWidth 32) unit.shortText.toList
          unit.fullText1.toList unit.fullText.toList
      else text) {}
    trimRight text.out

-- Separated words

/-- Words that each end with a separator are separated words with one at the end. -/
theorem flatMap_concat (sep : Char) {words : List (List Char)} (some_ : words ≠ [])
    : words.flatMap (· ++ [sep]) = [sep].intercalate words ++ [sep] := by
  induction words with
  | nil => exact absurd rfl some_
  | cons word rest ih =>
      by_cases last : rest = []
      · subst last
        simp
      · rw [List.flatMap_cons, ih last, List.intercalate_cons_of_ne_nil last]
        simp only [List.append_assoc]

def Plain (sep : Char) (words : List (List Char)) : Prop :=
  ∀ word ∈ words, word ≠ [] ∧ sep ∉ word

variable {sep : Char} {words others : List (List Char)}

/-- The words are found again between the separators. -/
theorem Plain.splitOn (plain : Plain sep words) (some_ : words ≠ [])
    : ([sep].intercalate words).splitOn sep = words :=
  List.splitOn_intercalate sep (fun word member => (plain word member).2) some_

theorem Plain.intercalate_ne_nil (plain : Plain sep words) (some_ : words ≠ [])
    : [sep].intercalate words ≠ [] := by
  intro empty
  have found := plain.splitOn some_
  rw [empty, List.splitOn_nil] at found
  exact (plain [] (found ▸ List.mem_singleton_self [])).1 rfl

/-- A text of words ends with a letter of a word. -/
theorem Plain.getLast?_ne (plain : Plain sep words)
    : ([sep].intercalate words).getLast? ≠ some sep := by
  induction words with
  | nil => simp
  | cons word rest ih =>
      have own := plain word List.mem_cons_self
      by_cases last : rest = []
      · subst last
        rw [List.intercalate_singleton]
        exact fun same => own.2 (List.mem_of_getLast? same)
      · have later : Plain sep rest := fun word member => plain word (List.mem_cons_of_mem _ member)
        rw [List.intercalate_cons_of_ne_nil last,
          List.getLast?_append_of_ne_nil _ (later.intercalate_ne_nil last)]
        exact ih later

/-- Different words give different texts. -/
theorem Plain.intercalate_inj (plain : Plain sep words) (plain' : Plain sep others)
    : [sep].intercalate words = [sep].intercalate others ↔ words = others := by
  refine ⟨fun same => ?_, fun same => by rw [same]⟩
  by_cases first : words = []
  · subst first
    by_contra second
    exact plain'.intercalate_ne_nil (Ne.symm second) same.symm
  · by_cases second : others = []
    · subst second
      exact absurd same (plain.intercalate_ne_nil first)
    · rw [← plain.splitOn first, same, plain'.splitOn second]

/-- Without the blank at its end, a text of words is the separated words. -/
theorem Plain.trimRight (plain : Plain ' ' words)
    : trimRight (words.flatMap (· ++ [' '])) = [' '].intercalate words := by
  by_cases some_ : words = []
  · subst some_
    rfl
  · have blank : decide (' ' = ' ') = true := by decide
    unfold Utilities.trimRight
    rw [flatMap_concat ' ' some_, List.rdropWhile_concat_pos (fun c => decide (c = ' ')) _ ' ' blank,
      List.rdropWhile_eq_self_iff]
    intro nonempty last
    exact plain.getLast?_ne
      ((List.getLast?_eq_some_getLast nonempty).trans (congrArg some (of_decide_eq_true last)))

theorem dropLast_flatMap_concat (sep : Char) (words : List (List Char))
    : (words.flatMap (· ++ [sep])).dropLast = [sep].intercalate words := by
  by_cases some_ : words = []
  · subst some_
    rfl
  · rw [flatMap_concat sep some_, List.dropLast_concat]

-- The units that are shown

/-- The duration at the resolution of the output: its first units that are not zero. -/
def shownOf (outCount : Nat) (durationTime : BitVec 64) (units : List TimeUnit)
    : List (TimeUnit × Nat) :=
  ((units.map (fun unit => (unit, (unit.value durationTime).toNat))).filter
    (fun shown => shown.2 ≠ 0)).take outCount

def shown (outCount : Nat) (durationTime : BitVec 64) : List (TimeUnit × Nat) :=
  shownOf outCount durationTime TimeUnit.all

variable {outCount : Nat} {durationTime : BitVec 64} {unit : TimeUnit} {units : List TimeUnit}

theorem shownOf_cons_of_zero (zero : unit.value durationTime = 0)
    : shownOf outCount durationTime (unit :: units) = shownOf outCount durationTime units := by
  unfold shownOf
  rw [List.map_cons, List.filter_cons_of_neg (by simp [zero])]

theorem shownOf_cons (some_ : unit.value durationTime ≠ 0)
    : shownOf (outCount + 1) durationTime (unit :: units)
      = (unit, (unit.value durationTime).toNat) :: shownOf outCount durationTime units := by
  have number : (unit.value durationTime).toNat ≠ 0 :=
    fun zero => some_ (BitVec.eq_of_toNat_eq zero)
  unfold shownOf
  rw [List.map_cons, List.filter_cons_of_pos (by simpa using number), List.take_succ_cons]

def unitWords (timeFormat : TimeFormat) (shown : TimeUnit × Nat) : List (List Char) :=
  match timeFormat with
  | .fullText =>
      [Nat.toDigits 10 shown.2,
        ((if shown.2 = 1 then shown.1.fullText1.toList else shown.1.fullText.toList).drop 1).dropLast]
  | .shortText | .numeric => [Nat.toDigits 10 shown.2 ++ shown.1.shortText.toList.dropLast]

def numericWords : List Nat → List (List Char)
  | [] => []
  | number :: rest => Nat.toDigits 10 number :: rest.map twoDigits

/-- The text that is added for a unit is its words, with a blank after each. -/
theorem addOut_of_lt {timeFormat : TimeFormat} (named : timeFormat ≠ .numeric) {text : TimeText}
    (room : text.count < outCount) {time : BitVec 32} {number : Nat} (same : time.toNat = number)
    : addOut timeFormat outCount text time unit.shortText.toList unit.fullText1.toList
        unit.fullText.toList
      = { text with
          out := text.out ++ (unitWords timeFormat (unit, number)).flatMap (· ++ [' '])
          count := text.count + 1 } := by
  subst same
  unfold addOut
  rw [if_neg (Nat.not_le.mpr room)]
  dsimp only
  congr 1
  rw [List.append_assoc]
  congr 1
  cases timeFormat with
  | numeric => exact absurd rfl named
  | shortText =>
      have blank : unit.shortText.toList = unit.shortText.toList.dropLast ++ [' '] := by
        cases unit <;> rfl
      dsimp only [unitWords]
      rw [List.flatMap_singleton, List.append_assoc, ← blank]
  | fullText =>
      have one : time = 1 ↔ time.toNat = 1 :=
        ⟨fun same => congrArg BitVec.toNat same, fun same => BitVec.eq_of_toNat_eq same⟩
      dsimp only [unitWords]
      rw [List.flatMap_cons, List.flatMap_singleton, List.append_assoc]
      congr 1
      by_cases single : time.toNat = 1
      · rw [if_pos (one.mpr single), if_pos single]
        cases unit <;> rfl
      · rw [if_neg (mt one.mp single), if_neg single]
        cases unit <;> rfl

/-- The loop over the units of a format that names them.
Witness: induction on the units; a unit that is zero is not shown, and what is too much is skipped.
-/
theorem addOut_units {timeFormat : TimeFormat} (named : timeFormat ≠ .numeric)
    (narrow : ∀ unit ∈ units, (unit.value durationTime).toNat < 2 ^ 32) (text : TimeText)
    : (units.foldl (fun text unit =>
        if unit.value durationTime ≠ 0 then
          addOut timeFormat outCount text ((unit.value durationTime).setWidth 32)
            unit.shortText.toList unit.fullText1.toList unit.fullText.toList
        else text) text).out
      = text.out ++ ((shownOf (outCount - text.count) durationTime units).flatMap
          (unitWords timeFormat)).flatMap (· ++ [' ']) := by
  induction units generalizing text with
  | nil => simp [shownOf]
  | cons unit rest ih =>
      rw [List.forall_mem_cons] at narrow
      rw [List.foldl_cons]
      by_cases zero : unit.value durationTime = 0
      · rw [if_neg (not_not.mpr zero), ih narrow.2, shownOf_cons_of_zero zero]
      · rw [if_pos zero]
        by_cases room : text.count < outCount
        · obtain ⟨left_, here⟩ := Nat.exists_eq_add_of_lt room
          have more : outCount - text.count = left_ + 1 := by omega
          have later : outCount - (text.count + 1) = left_ := by omega
          have number : ((unit.value durationTime).setWidth 32).toNat
              = (unit.value durationTime).toNat := by
            rw [BitVec.toNat_setWidth, Nat.mod_eq_of_lt narrow.1]
          rw [addOut_of_lt named room number, ih narrow.2, more, shownOf_cons zero]
          dsimp only
          rw [later, List.flatMap_cons, List.flatMap_append, List.append_assoc]
        · have full : addOut timeFormat outCount text ((unit.value durationTime).setWidth 32)
              unit.shortText.toList unit.fullText1.toList unit.fullText.toList = text :=
            if_pos (Nat.not_lt.mp room)
          have same : outCount - text.count = 0 := Nat.sub_eq_zero_of_le (Nat.not_lt.mp room)
          rw [full, ih narrow.2, same]
          rfl

/-- The loop over the units of the numeric format: what follows the first number has two digits. -/
theorem addOutNumerlic_units (text : TimeText)
    : (units.foldl (fun text unit =>
        if unit.value durationTime ≠ 0 then
          addOutNumerlic outCount text (unit.value durationTime)
        else text) text).out
      = text.out ++
          (if text.isFirst then
              ((shownOf (outCount - text.count) durationTime units).map Prod.snd).map twoDigits
            else numericWords ((shownOf (outCount - text.count) durationTime units).map
              Prod.snd)).flatMap (· ++ [':']) := by
  induction units generalizing text with
  | nil => simp [shownOf, numericWords]
  | cons unit rest ih =>
      rw [List.foldl_cons]
      by_cases zero : unit.value durationTime = 0
      · rw [if_neg (not_not.mpr zero), ih, shownOf_cons_of_zero zero]
      · rw [if_pos zero]
        by_cases room : text.count < outCount
        · obtain ⟨left_, here⟩ := Nat.exists_eq_add_of_lt room
          have more : outCount - text.count = left_ + 1 := by omega
          have later : outCount - (text.count + 1) = left_ := by omega
          rw [more, shownOf_cons zero, ih]
          unfold addOutNumerlic
          rw [if_neg (Nat.not_le.mpr room)]
          cases text.isFirst with
          | false => simp [later, numericWords]
          | true => simp [later]
        · have full : addOutNumerlic outCount text (unit.value durationTime) = text :=
            if_pos (Nat.not_lt.mp room)
          have same : outCount - text.count = 0 := Nat.sub_eq_zero_of_le (Nat.not_lt.mp room)
          rw [full, ih, same]
          rfl

-- Texts can be told apart

theorem not_mem_toDigits {c : Char} (other : c.isDigit = false) (number : Nat)
    : c ∉ Nat.toDigits 10 number := by
  intro member
  have digit := Nat.isDigit_of_mem_toDigits (by decide) (by decide) member
  rw [other] at digit
  exact Bool.noConfusion digit

/-- The name of a unit in the format of full texts. -/
theorem fullText_plain (unit : TimeUnit) (number : Nat)
    : ((if number = 1 then unit.fullText1.toList else unit.fullText.toList).drop 1).dropLast ≠ []
      ∧ ' ' ∉ ((if number = 1 then unit.fullText1.toList
          else unit.fullText.toList).drop 1).dropLast := by
  split <;> cases unit <;> decide

theorem unitWords_plain (timeFormat : TimeFormat) (shown : TimeUnit × Nat)
    : Plain ' ' (unitWords timeFormat shown) := by
  have digits : Nat.toDigits 10 shown.2 ≠ [] ∧ ' ' ∉ Nat.toDigits 10 shown.2 :=
    ⟨Nat.toDigits_ne_nil, not_mem_toDigits (by decide) _⟩
  have suffix : ' ' ∉ shown.1.shortText.toList.dropLast := by
    cases shown.1 <;> decide
  have short : Nat.toDigits 10 shown.2 ++ shown.1.shortText.toList.dropLast ≠ []
      ∧ ' ' ∉ Nat.toDigits 10 shown.2 ++ shown.1.shortText.toList.dropLast :=
    ⟨List.append_ne_nil_of_left_ne_nil digits.1 _, fun member =>
      (List.mem_append.mp member).elim digits.2 suffix⟩
  cases timeFormat with
  | fullText =>
      intro word member
      rcases List.mem_cons.mp member with rfl | member
      · exact digits
      · rw [List.mem_singleton.mp member]
        exact fullText_plain shown.1 shown.2
  | shortText | numeric =>
      intro word member
      rw [List.mem_singleton.mp member]
      exact short

/-- The words of a unit in front of others determine the unit, its value and the others. -/
theorem unitWords_append_inj {timeFormat : TimeFormat} {first second : TimeUnit × Nat}
    {rest rest' : List (List Char)}
    (same : unitWords timeFormat first ++ rest = unitWords timeFormat second ++ rest')
    : first = second ∧ rest = rest' := by
  have number {digits digits' : List Char} {n n' : Nat} (left_ : digits = Nat.toDigits 10 n)
      (right : digits' = Nat.toDigits 10 n') (agree : digits = digits') : n = n' := by
    rw [← @Nat.ofDigitChars_ten_toDigits n, ← left_, agree, right, Nat.ofDigitChars_ten_toDigits]
  have short
      (same : Nat.toDigits 10 first.2 ++ first.1.shortText.toList.dropLast
        = Nat.toDigits 10 second.2 ++ second.1.shortText.toList.dropLast)
      : first = second := by
    have cut (shown : TimeUnit × Nat)
        : (Nat.toDigits 10 shown.2 ++ shown.1.shortText.toList.dropLast).takeWhile Char.isDigit
          = Nat.toDigits 10 shown.2 := by
      have digits (c : Char) (member : c ∈ Nat.toDigits 10 shown.2) : c.isDigit :=
        Nat.isDigit_of_mem_toDigits (by decide) (by decide) member
      rw [List.takeWhile_append_of_pos digits]
      cases shown.1 <;> exact List.append_nil _
    have agree : Nat.toDigits 10 first.2 = Nat.toDigits 10 second.2 := by
      rw [← cut first, same, cut second]
    rw [agree] at same
    have suffix := List.append_cancel_left same
    have unit : first.1 = second.1 := by
      revert suffix
      cases first.1 <;> cases second.1 <;> decide
    exact Prod.ext unit (number rfl rfl agree)
  cases timeFormat with
  | fullText =>
      obtain ⟨digits, names⟩ := List.cons.inj same
      obtain ⟨name, others⟩ := List.cons.inj names
      have values := number rfl rfl digits
      have unit : first.1 = second.1 := by
        rw [values] at name
        revert name
        split <;> cases first.1 <;> cases second.1 <;> decide
      exact ⟨Prod.ext unit values, others⟩
  | shortText | numeric =>
      obtain ⟨word, others⟩ := List.cons.inj same
      exact ⟨short word, others⟩

/-- The words of units determine the units and their values. -/
theorem flatMap_unitWords_inj {timeFormat : TimeFormat} {first second : List (TimeUnit × Nat)}
    : first.flatMap (unitWords timeFormat) = second.flatMap (unitWords timeFormat)
      ↔ first = second := by
  refine ⟨fun same => ?_, fun same => by rw [same]⟩
  have some_ (shown : TimeUnit × Nat) : unitWords timeFormat shown ≠ [] := by
    cases timeFormat <;> exact List.cons_ne_nil _ _
  induction first generalizing second with
  | nil =>
      cases second with
      | nil => rfl
      | cons shown rest =>
          rw [List.flatMap_nil, List.flatMap_cons] at same
          exact absurd (List.append_eq_nil_iff.mp same.symm).1 (some_ shown)
  | cons shown rest ih =>
      cases second with
      | nil =>
          rw [List.flatMap_nil, List.flatMap_cons] at same
          exact absurd (List.append_eq_nil_iff.mp same).1 (some_ shown)
      | cons other others =>
          rw [List.flatMap_cons, List.flatMap_cons] at same
          obtain ⟨rfl, later⟩ := unitWords_append_inj same
          rw [ih later]

theorem numericWords_plain (numbers : List Nat) : Plain ':' (numericWords numbers) := by
  have digits (number : Nat) : Nat.toDigits 10 number ≠ [] ∧ ':' ∉ Nat.toDigits 10 number :=
    ⟨Nat.toDigits_ne_nil, not_mem_toDigits (by decide) _⟩
  cases numbers with
  | nil => exact fun _ member => absurd member List.not_mem_nil
  | cons number rest =>
      intro word member
      rcases List.mem_cons.mp member with rfl | later
      · exact digits number
      · obtain ⟨other, -, rfl⟩ := List.mem_map.mp later
        refine ⟨List.append_ne_nil_of_right_ne_nil _ (digits other).1, fun colon => ?_⟩
        rcases List.mem_append.mp colon with zeros | own
        · exact absurd (List.eq_of_mem_replicate zeros) (by decide)
        · exact (digits other).2 own

theorem numericWords_inj {first second : List Nat}
    : numericWords first = numericWords second ↔ first = second := by
  have read (numbers : List Nat)
      : (numericWords numbers).map (fun word => Nat.ofDigitChars 10 word 0) = numbers := by
    cases numbers with
    | nil => rfl
    | cons number rest =>
        have padded : (fun word => Nat.ofDigitChars 10 word 0) ∘ twoDigits = id := by
          funext other
          change Nat.ofDigitChars 10 (twoDigits other) 0 = other
          unfold twoDigits
          rw [Nat.ofDigitChars_append, Nat.ofDigitChars_replicate_zero, Nat.mul_zero,
            Nat.ofDigitChars_ten_toDigits]
        rw [numericWords, List.map_cons, Nat.ofDigitChars_ten_toDigits, List.map_map, padded,
          List.map_id]
  exact ⟨fun same => by rw [← read first, same, read second], fun same => by rw [same]⟩

/-- A unit of a duration that is not negative, as a number. -/
theorem toNat_value (positive : durationTime.toNat < 2 ^ 63) (unit : TimeUnit)
    : (unit.value durationTime).toNat
      = match unit with
        | .days => durationTime.toNat / 86400000000
        | .hours => durationTime.toNat / 3600000000 % 24
        | .minutes => durationTime.toNat / 60000000 % 60
        | .secs => durationTime.toNat / 1000000 % 60
        | .millisecs => durationTime.toNat / 1000 % 1000
        | .microsecs => durationTime.toNat % 1000 := by
  cases unit with
  | microsecs =>
      have sign : durationTime.msb = false := BitVec.msb_eq_false_iff_two_mul_lt.mpr (by omega)
      unfold TimeUnit.value
      rw [BitVec.srem_eq, sign]
      exact BitVec.toNat_umod
  | days => exact BitVec.toNat_udiv
  | _ => exact BitVec.toNat_umod.trans (congrArg (· % _) BitVec.toNat_udiv)

theorem shown_plain (timeFormat : TimeFormat) (units : List (TimeUnit × Nat))
    : Plain ' ' (units.flatMap (unitWords timeFormat)) := by
  intro word member
  obtain ⟨one, -, own⟩ := List.mem_flatMap.mp member
  exact unitWords_plain timeFormat one word own

/-- What is written in a format that names the units. -/
theorem toTimeString_named {timeFormat : TimeFormat} (named : timeFormat ≠ .numeric)
    (positive : durationTime.toNat < 2 ^ 63)
    : toTimeString durationTime outCount timeFormat
      = [' '].intercalate ((shown outCount durationTime).flatMap (unitWords timeFormat)) := by
  have narrow (unit : TimeUnit) (_ : unit ∈ TimeUnit.all)
      : (unit.value durationTime).toNat < 2 ^ 32 := by
    rw [toNat_value positive unit]
    cases unit <;> dsimp only <;> omega
  have plain := shown_plain timeFormat (shown outCount durationTime)
  have written := @addOut_units outCount _ _ timeFormat named narrow {}
  unfold toTimeString
  rw [if_neg named]
  exact (congrArg trimRight written).trans plain.trimRight

/-- What is written in the numeric format. -/
theorem toTimeString_numeric (durationTime : BitVec 64) (outCount : Nat)
    : toTimeString durationTime outCount .numeric
      = [':'].intercalate (numericWords ((shown outCount durationTime).map Prod.snd)) := by
  have written := @addOutNumerlic_units outCount durationTime TimeUnit.all {}
  unfold toTimeString
  rw [if_pos rfl]
  exact (congrArg List.dropLast written).trans (dropLast_flatMap_concat ':' _)

def TimeUnit.size : TimeUnit → Nat
  | days => 86400000000
  | hours => 3600000000
  | minutes => 60000000
  | secs => 1000000
  | millisecs => 1000
  | microsecs => 1

/-- Units that are zero do not count. -/
theorem sum_shownOf (weight : TimeUnit → Nat) (enough : units.length ≤ outCount)
    : ((shownOf outCount durationTime units).map (fun one => weight one.1 * one.2)).sum
      = (units.map (fun unit => weight unit * (unit.value durationTime).toNat)).sum := by
  induction units generalizing outCount with
  | nil => simp [shownOf]
  | cons unit rest ih =>
      rw [List.length_cons] at enough
      by_cases zero : unit.value durationTime = 0
      · rw [shownOf_cons_of_zero zero, ih (by omega), List.map_cons, List.sum_cons, zero]
        simp
      · obtain ⟨left_, rfl⟩ := Nat.exists_eq_add_of_lt (by omega : 0 < outCount)
        rw [Nat.zero_add, shownOf_cons zero, List.map_cons, List.sum_cons, ih (by omega),
          List.map_cons, List.sum_cons]

/-- All units together are the duration. -/
theorem sum_shown (positive : durationTime.toNat < 2 ^ 63) (enough : 6 ≤ outCount)
    : ((shown outCount durationTime).map (fun one => one.1.size * one.2)).sum
      = durationTime.toNat := by
  unfold shown
  rw [sum_shownOf TimeUnit.size enough]
  simp only [TimeUnit.all, List.map_cons, List.map_nil, List.sum_cons, List.sum_nil,
    toNat_value positive, TimeUnit.size]
  omega

-- Short texts are read

theorem seconds_of_lt {count : Nat} (small : count < 2 ^ 63) : seconds count = some count :=
  if_pos small

theorem le_ofDigitChars (digits : List Char) (init : Nat)
    : init ≤ Nat.ofDigitChars 10 digits init := by
  have power : 1 ≤ 10 ^ digits.length := Nat.one_le_two_pow.trans (Nat.pow_le_pow_left (by decide) _)
  have scaled := Nat.mul_le_mul_right init power
  rw [Nat.ofDigitChars_eq_ofDigitChars_zero]
  omega

/-- Digits are read as their number. -/
theorem timeStringToFrom_digits {digits : List Char} (rest : List Char) {scan : TimeScan}
    (all : ∀ c ∈ digits, c.isDigit)
    (small : Nat.ofDigitChars 10 digits scan.buffer < 2 ^ 63)
    : timeStringToFrom scan (digits ++ rest)
      = timeStringToFrom { scan with buffer := Nat.ofDigitChars 10 digits scan.buffer } rest := by
  induction digits generalizing scan with
  | nil => rfl
  | cons c later ih =>
      rw [List.forall_mem_cons] at all
      rw [Nat.ofDigitChars_cons] at small ⊢
      have bound := (le_ofDigitChars later _).trans_lt small
      have blank : c ≠ ' ' := by
        rintro rfl
        exact absurd all.1 (by decide)
      rw [List.cons_append, timeStringToFrom, if_neg blank, if_pos all.1,
        seconds_of_lt (by omega : scan.buffer * 10 < 2 ^ 63), Option.bind_eq_bind,
        Option.bind_some, Nat.mul_comm scan.buffer 10, seconds_of_lt bound, Option.bind_some]
      exact @ih { scan with buffer := 10 * scan.buffer + (c.toNat - '0'.toNat) } all.2 small

def TimeUnit.multiplier : TimeUnit → Nat
  | days => 86400
  | hours => 3600
  | minutes => 60
  | secs => 1
  | millisecs | microsecs => 0

/-- A unit of whole seconds is read as its seconds. -/
theorem timeStringToFrom_unit {unit : TimeUnit} (whole : unit ≠ .millisecs ∧ unit ≠ .microsecs)
    {number total : Nat} (small : total + unit.multiplier * number < 2 ^ 63) (rest : List Char)
    : timeStringToFrom { secs := total }
        (Nat.toDigits 10 number ++ unit.shortText.toList.dropLast ++ rest)
      = timeStringToFrom { secs := total + unit.multiplier * number } rest := by
  have positive : 1 ≤ unit.multiplier := by
    cases unit <;> simp_all [TimeUnit.multiplier]
  have bound : number < 2 ^ 63 := by
    have scaled := Nat.mul_le_mul_right number positive
    omega
  have digits := @timeStringToFrom_digits (Nat.toDigits 10 number)
    (unit.shortText.toList.dropLast ++ rest) { secs := total }
    (fun c member => Nat.isDigit_of_mem_toDigits (by decide) (by decide) member)
    (by rwa [Nat.ofDigitChars_ten_toDigits])
  rw [List.append_assoc, digits, Nat.ofDigitChars_ten_toDigits]
  have letter (itr : Char) (own : unit.shortText.toList.dropLast = [itr])
      (known : itr ≠ ' ' ∧ itr.isDigit = false ∧ timeMultiplier itr = some unit.multiplier)
      : timeStringToFrom { secs := total, buffer := number }
          (unit.shortText.toList.dropLast ++ rest)
        = timeStringToFrom { secs := total + unit.multiplier * number } rest := by
    rw [own, List.singleton_append, timeStringToFrom, if_neg known.1,
      if_neg (by rw [known.2.1]; exact Bool.noConfusion), known.2.2]
    dsimp only
    rw [Nat.mul_comm number, seconds_of_lt (by omega), Option.bind_eq_bind, Option.bind_some,
      seconds_of_lt small, Option.bind_some]
  cases unit with
  | days => exact letter 'd' rfl (by decide)
  | hours => exact letter 'h' rfl (by decide)
  | minutes => exact letter 'm' rfl (by decide)
  | secs => exact letter 's' rfl (by decide)
  | millisecs => exact absurd rfl whole.1
  | microsecs => exact absurd rfl whole.2

/-- Units of whole seconds are read as all their seconds. -/
theorem timeStringToFrom_units {units : List (TimeUnit × Nat)}
    (whole : ∀ one ∈ units, one.1 ≠ .millisecs ∧ one.1 ≠ .microsecs) {total : Nat}
    (small : total + (units.map (fun one => one.1.multiplier * one.2)).sum < 2 ^ 63)
    : timeStringToFrom { secs := total }
        ([' '].intercalate (units.flatMap (unitWords .shortText)))
      = some (total + (units.map (fun one => one.1.multiplier * one.2)).sum) := by
  induction units generalizing total with
  | nil => rfl
  | cons one rest ih =>
      rw [List.forall_mem_cons] at whole
      rw [List.map_cons, List.sum_cons, ← Nat.add_assoc] at small ⊢
      have later := ih whole.2 small
      have fits : total + one.1.multiplier * one.2 < 2 ^ 63 := by omega
      have word : unitWords .shortText one
          = [Nat.toDigits 10 one.2 ++ one.1.shortText.toList.dropLast] := rfl
      rw [List.flatMap_cons, word, List.singleton_append]
      by_cases last : rest.flatMap (unitWords .shortText) = []
      · rw [last] at later ⊢
        have read := timeStringToFrom_unit whole.1 fits []
        rw [List.append_nil] at read
        rw [List.intercalate_singleton, read]
        exact later
      · rw [List.intercalate_cons_of_ne_nil last, List.append_assoc,
          timeStringToFrom_unit whole.1 fits]
        exact later

/-- A text of units does not start with a sign. -/
theorem head?_units (units : List (TimeUnit × Nat))
    : ([' '].intercalate (units.flatMap (unitWords .shortText))).head? ≠ some '-' := by
  cases units with
  | nil => exact (Option.some_ne_none _).symm
  | cons one rest =>
      have digits : '-' ∉ Nat.toDigits 10 one.2 := not_mem_toDigits (by decide) _
      obtain ⟨c, later, number⟩ := List.exists_cons_of_ne_nil (@Nat.toDigits_ne_nil one.2 10)
      have word : unitWords .shortText one
          = [c :: (later ++ one.1.shortText.toList.dropLast)] := by
        dsimp only [unitWords]
        rw [number, List.cons_append]
      have front : ∃ text, [' '].intercalate ((one :: rest).flatMap (unitWords .shortText))
          = c :: text := by
        rw [List.flatMap_cons, word, List.singleton_append]
        by_cases last : rest.flatMap (unitWords .shortText) = []
        · rw [last, List.intercalate_singleton]
          exact ⟨_, rfl⟩
        · rw [List.intercalate_cons_of_ne_nil last]
          exact ⟨_, rfl⟩
      obtain ⟨text, same⟩ := front
      rw [same]
      intro sign
      rw [number, Option.some.inj sign] at digits
      exact digits List.mem_cons_self

/-- The units of whole seconds are read as the seconds. -/
theorem read_of_seconds {secs : Nat} (whole : durationTime.toNat = secs * 1000000)
    (positive : durationTime.toNat < 2 ^ 63) (enough : 4 ≤ outCount)
    : (∀ one ∈ shown outCount durationTime, one.1 ≠ .millisecs ∧ one.1 ≠ .microsecs)
      ∧ ((shown outCount durationTime).map (fun one => one.1.multiplier * one.2)).sum = secs := by
  have zero (unit : TimeUnit) (small : unit = .millisecs ∨ unit = .microsecs)
      : (unit.value durationTime).toNat = 0 := by
    rcases small with rfl | rfl <;> rw [toNat_value positive, whole] <;> dsimp only <;> omega
  have same : shown outCount durationTime
      = shownOf outCount durationTime [.days, .hours, .minutes, .secs] := by
    have all : TimeUnit.all = [.days, .hours, .minutes, .secs] ++ [.millisecs, .microsecs] := rfl
    have none_ : ([TimeUnit.millisecs, .microsecs].map (fun unit =>
          (unit, (unit.value durationTime).toNat))).filter (fun shown => shown.2 ≠ 0) = [] := by
      simp [zero]
    unfold shown shownOf
    rw [all, List.map_append, List.filter_append, none_, List.append_nil]
  constructor
  · intro one member
    rw [same] at member
    obtain ⟨unit, own, rfl⟩ := List.mem_map.mp (List.mem_of_mem_filter (List.mem_of_mem_take member))
    dsimp only
    constructor
    · rintro rfl
      exact absurd own (by decide)
    · rintro rfl
      exact absurd own (by decide)
  · rw [same, sum_shownOf TimeUnit.multiplier enough]
    simp only [List.map_cons, List.map_nil, List.sum_cons, List.sum_nil, toNat_value positive,
      TimeUnit.multiplier]
    omega

/-- What is shown of a duration determines it in the formats that name the units; the numeric format
shows only the values. A short text of whole seconds with all its units is read as these seconds.
Witness: words between blanks are found again; digits and letters are told apart.
-/
theorem time_texts_tell_durations (outCount : Nat)
    : (∀ secs : Nat, secs * 1000000 < 2 ^ 63 → 4 ≤ outCount →
        timeStringTo (toTimeString (BitVec.ofNat 64 (secs * 1000000)) outCount .shortText)
          = some secs)
      ∧ ∀ first second : BitVec 64, first.toNat < 2 ^ 63 → second.toNat < 2 ^ 63 →
          (∀ timeFormat, timeFormat ≠ .numeric →
            (toTimeString first outCount timeFormat = toTimeString second outCount timeFormat
              ↔ shown outCount first = shown outCount second))
          ∧ (toTimeString first outCount .numeric = toTimeString second outCount .numeric
            ↔ (shown outCount first).map Prod.snd = (shown outCount second).map Prod.snd)
          ∧ (6 ≤ outCount → (shown outCount first = shown outCount second ↔ first = second)) := by
  refine ⟨fun secs fits enough => ?_, fun first second positive positive' => ⟨?_, ?_, ?_⟩⟩
  · have whole : (BitVec.ofNat 64 (secs * 1000000)).toNat = secs * 1000000 := by
      rw [BitVec.toNat_ofNat, Nat.mod_eq_of_lt (by omega)]
    have positive : (BitVec.ofNat 64 (secs * 1000000)).toNat < 2 ^ 63 := by rwa [whole]
    obtain ⟨units, sum⟩ := read_of_seconds whole positive enough
    have read := @timeStringToFrom_units _ units 0 (by rw [sum]; omega)
    unfold timeStringTo
    rw [toTimeString_named (by decide) positive, if_neg (head?_units _), read, sum, Nat.zero_add]
  · intro timeFormat named
    rw [toTimeString_named named positive, toTimeString_named named positive',
      (shown_plain _ _).intercalate_inj (shown_plain _ _), flatMap_unitWords_inj]
  · rw [toTimeString_numeric, toTimeString_numeric,
      (numericWords_plain _).intercalate_inj (numericWords_plain _), numericWords_inj]
  · intro enough
    refine ⟨fun same => BitVec.eq_of_toNat_eq ?_, fun same => by rw [same]⟩
    rw [← sum_shown positive enough, same, sum_shown positive' enough]

/-- An hour and five seconds have the same numeric text as a minute and five seconds. -/
theorem numeric_texts_agree
    : toTimeString 3605000000 6 .numeric = toTimeString 65000000 6 .numeric
      ∧ (shown 6 3605000000).map Prod.snd = [1, 5]
      ∧ shown 6 3605000000 ≠ shown 6 65000000 := by
  have values : (shown 6 3605000000).map Prod.snd = (shown 6 65000000).map Prod.snd := by
    decide +kernel
  refine ⟨?_, by decide +kernel, by decide +kernel⟩
  rw [toTimeString_numeric, toTimeString_numeric, values]

end WarheadCore.Utilities
