import Mathlib.Data.Option.Basic
import WarheadCore.Foundation.CheckedReads
import WarheadCore.Utilities.MoneyStrings

/-! The links in chat messages. A message is made of plain characters, of escaped pipes and of links
whose tags are known. A character stands for a byte of the message.
-/

namespace WarheadCore.Chat

open Foundation
open WarheadCore.Utilities (fromChars stringToUInt32)

-- Texts

def findChar (str : List Char) (c : Char) (pos : Nat) : Option Nat :=
  ((str.drop pos).findIdx? (fun other => other = c)).map (fun i => pos + i)

/-- `substr`; a position behind the end of the text throws. -/
def substr (str : List Char) (pos count : Nat) : Option (List Char) :=
  if pos ≤ str.length then some ((str.drop pos).take count) else none

def removePrefix (str : List Char) (n : Nat) : Option (List Char) :=
  if n ≤ str.length then some (str.drop n) else none

-- A single link

structure HyperlinkInfo where
  tail : List Char
  color : BitVec 32
  tag : List Char
  data : List Char
  text : List Char

def toHex (c : Char) : BitVec 8 :=
  if '0' ≤ c ∧ c ≤ '9' then BitVec.ofNat 8 (c.toNat - '0'.toNat + 0x10)
  else if 'a' ≤ c ∧ c ≤ 'f' then BitVec.ofNat 8 (c.toNat - 'a'.toNat + 0x1a)
  else 0

def appendDigit (color : BitVec 32) (c : Char) : BitVec 32 :=
  (color <<< 4) ||| (toHex c &&& 0xf).setWidth 32

def readColor (str : List Char) : Nat → Nat → BitVec 32 → OptionT Option (BitVec 32)
  | 0, _, color => pure color
  | count + 1, i, color => do
      let c ← readOf str[i]?
      guard (toHex c ≠ 0)
      readColor str count (i + 1) (appendDigit color c)

def parseColor (str : List Char) : OptionT Option (BitVec 32 × List Char) := do
  guard (str.take 2 = "|c".toList)
  let str ← readOf (removePrefix str 2)
  guard (8 ≤ str.length)
  let color ← readColor str 8 0 0
  let str ← readOf (removePrefix str 8)
  return (color, str)

def splitTag (tag : List Char) : OptionT Option (List Char × List Char) :=
  match findChar tag ':' 0 with
  | some dataStart => do
      let data ← readOf (removePrefix tag (dataStart + 1))
      return (tag.take dataStart, data)
  | none => return (tag, [])

/-- The tag and the data of a link, and what follows the pipe behind them. -/
def parseTag (str : List Char) : OptionT Option ((List Char × List Char) × List Char) := do
  guard (str.take 2 = "|H".toList)
  let str ← readOf (removePrefix str 2)
  let delimPos ← searchOf (findChar str '|' 0)
  let tag ← splitTag (str.take delimPos)
  let str ← readOf (removePrefix str (delimPos + 1))
  return (tag, str)

/-- The text between the brackets before a position, and what follows the end of the link there. -/
def parseBrackets (str : List Char) (stop : Nat) : OptionT Option (List Char × List Char) := do
  let first ← readOf str[0]?
  guard (first = '[')
  -- a position before the first one wraps around, to behind the end
  let last ← readOf (if stop = 0 then none else str[stop - 1]?)
  guard (last = ']')
  let text ← readOf (substr str 1 (stop - 2))
  let tail ← readOf (removePrefix str (stop + 4))
  return (text, tail)

def parseText (str : List Char) : OptionT Option (List Char × List Char) := do
  guard (str.take 1 = "h".toList)
  let str ← readOf (removePrefix str 1)
  let stop ← searchOf (findChar str '|' 0)
  let endTag ← readOf (substr str stop 4)
  guard (endTag = "|h|r".toList)
  parseBrackets str stop

def parseSingleHyperlink (str : List Char) : OptionT Option HyperlinkInfo := do
  let (color, str) ← parseColor str
  let ((tag, data), str) ← parseTag str
  let (text, tail) ← parseText str
  return { tail, color, tag, data, text }

-- Known tags

/-- The tags, in the order in which they are tried. -/
inductive LinkTag where
  | achievement | area | areatrigger | creature | creatureEntry | enchant | gameevent | gameobject
  | gameobjectEntry | glyph | item | itemset | player | quest | skill | spell | talent | taxinode
  | tele | title | trade
deriving DecidableEq

def LinkTag.all : List LinkTag :=
  [.achievement, .area, .areatrigger, .creature, .creatureEntry, .enchant, .gameevent, .gameobject,
    .gameobjectEntry, .glyph, .item, .itemset, .player, .quest, .skill, .spell, .talent, .taxinode,
    .tele, .title, .trade]

def LinkTag.tag : LinkTag → List Char
  | .achievement => "achievement".toList
  | .area => "area".toList
  | .areatrigger => "areatrigger".toList
  | .creature => "creature".toList
  | .creatureEntry => "creature_entry".toList
  | .enchant => "enchant".toList
  | .gameevent => "gameevent".toList
  | .gameobject => "gameobject".toList
  | .gameobjectEntry => "gameobject_entry".toList
  | .glyph => "glyph".toList
  | .item => "item".toList
  | .itemset => "itemset".toList
  | .player => "player".toList
  | .quest => "quest".toList
  | .skill => "skill".toList
  | .spell => "spell".toList
  | .talent => "talent".toList
  | .taxinode => "taxinode".toList
  | .tele => "tele".toList
  | .title => "title".toList
  | .trade => "trade".toList

/-- The types of the values of the tags that are made from `base_tag`. -/
inductive BaseType where
  | uint16 | uint32 | string

def LinkTag.baseType : LinkTag → Option BaseType
  | .area | .areatrigger | .creature | .creatureEntry | .gameobject | .gameobjectEntry | .itemset
  | .skill | .taxinode | .tele | .title => some .uint32
  | .gameevent => some .uint16
  | .player => some .string
  | .achievement | .enchant | .glyph | .item | .quest | .spell | .talent | .trade => none

def BaseType.storeTo (type : BaseType) (data : List Char) : Bool :=
  match type with
  | .uint16 =>
      match fromChars (2 ^ 16) data with
      | some (_, []) => true
      | _ => false
  | .uint32 => (stringToUInt32 data).isSome
  | .string => true

/-- What the other tags make of their links, by the stores of the game: the value of the data, and
whether a colour and a text are right for it.
-/
structure LinkValidators (V : Type) where
  storeTo : LinkTag → List Char → Option V
  isColorValid : LinkTag → V → BitVec 32 → Bool
  isTextValid : LinkTag → V → List Char → Bool

structure LinkConfig (V : Type) where
  validators : LinkValidators V
  severity : Int

section Config

variable {V : Type} (config : LinkConfig V)

/-- `ValidateAs`; colours and texts of the tags from `base_tag` are always valid. -/
def validateAs (tag : LinkTag) (info : HyperlinkInfo) : Bool :=
  match tag.baseType with
  | some type => type.storeTo info.data
  | none =>
      match config.validators.storeTo tag info.data with
      | none => false
      | some value =>
          if config.severity ≥ 0 then
            if !config.validators.isColorValid tag value info.color then false
            else if config.severity ≥ 1 then config.validators.isTextValid tag value info.text
            else true
          else true

def validateLinkInfo (info : HyperlinkInfo) : Bool :=
  match LinkTag.all.find? (fun tag => info.tag = tag.tag) with
  | some tag => validateAs config tag info
  | none => false

-- Whole messages

def controlCharacters : List Char := ['H', 'h', 'c', 'r', '|']

def checkSequences (str : List Char) : Nat → Nat → Option Bool
  | 0, _ => none
  | fuel + 1, pos =>
      match findChar str '|' pos with
      | none => some true
      | some pos =>
          if pos + 1 = str.length then some false
          else do
            let next ← str[pos + 1]?
            if next ∈ controlCharacters then checkSequences str fuel (pos + 2) else some false

def checkLinks : Nat → List Char → Option Bool
  | 0, _ => none
  | fuel + 1, str =>
      match findChar str '|' 0 with
      | none => some true
      | some pos => do
          let next ← str[pos + 1]?
          if next = '|' then
            let str ← removePrefix str (pos + 2)
            checkLinks fuel str
          else
            let str ← removePrefix str pos
            match ← (parseSingleHyperlink str).run with
            | none => some false
            | some info =>
                if validateLinkInfo config info then checkLinks fuel info.tail else some false

/-- `CheckAllLinks`. There is no result if the message is too long for the fuel or is read behind
its end.
-/
def checkAllLinks (fuel : Nat) (str : List Char) : Option Bool := do
  if ← checkSequences str fuel 0 then checkLinks config fuel str else some false

end Config

-- The grammar

/-- A link as it is written: the digits of its colour, the tag, the data, which can be missing, and
the text.
-/
structure Hyperlink where
  digits : List Char
  tag : List Char
  data : Option (List Char)
  text : List Char

def dataChars : Option (List Char) → List Char
  | some data => ':' :: data
  | none => []

namespace Hyperlink

/-- |c, the colour, |H, the tag and the data, |h, the text in brackets and |h|r. -/
def toChars (link : Hyperlink) : List Char :=
  '|' :: 'c' :: (link.digits ++ '|' :: 'H' :: (link.tag ++ dataChars link.data
    ++ '|' :: 'h' :: '[' :: (link.text ++ [']', '|', 'h', '|', 'r'])))

def color (link : Hyperlink) : BitVec 32 := link.digits.foldl appendDigit 0

def info (link : Hyperlink) (tail : List Char) : HyperlinkInfo :=
  { tail, color := link.color, tag := link.tag, data := link.data.getD [], text := link.text }

/-- A colour has eight digits of base 16 in lower case; no part of a link has a pipe in it. -/
structure Formed (link : Hyperlink) : Prop where
  eight : link.digits.length = 8
  digits : ∀ c ∈ link.digits, '0' ≤ c ∧ c ≤ '9' ∨ 'a' ≤ c ∧ c ≤ 'f'
  tag : '|' ∉ link.tag ∧ ':' ∉ link.tag
  data : ∀ data, link.data = some data → '|' ∉ data
  text : '|' ∉ link.text

/-- The tag is known and takes the data and, as the severity demands, the colour and the text. -/
def Valid {V : Type} (config : LinkConfig V) (link : Hyperlink) : Prop :=
  ∃ tag : LinkTag, link.tag = tag.tag ∧ validateAs config tag (link.info []) = true

end Hyperlink

def Hyperlink.Accepted {V : Type} (config : LinkConfig V) (link : Hyperlink) : Prop :=
  link.Formed ∧ link.Valid config

/-- Messages of plain characters, escaped pipes and links of some kind. -/
inductive Message (isLink : Hyperlink → Prop) : List Char → Prop
  | done : Message isLink []
  | plain {c : Char} {rest : List Char} (plain : c ≠ '|') (later : Message isLink rest)
      : Message isLink (c :: rest)
  | escaped {rest : List Char} (later : Message isLink rest)
      : Message isLink ('|' :: '|' :: rest)
  | link {rest : List Char} (link : Hyperlink) (holds : isLink link) (later : Message isLink rest)
      : Message isLink (link.toChars ++ rest)

-- Positions in a text

theorem findChar_eq_none_iff {str : List Char} {c : Char}
    : findChar str c 0 = none ↔ c ∉ str := by
  unfold findChar
  simp only [List.drop_zero, Option.map_eq_none_iff, List.findIdx?_eq_none_iff, decide_eq_false_iff_not]
  exact ⟨fun all member => all c member rfl, fun absent other member same => absent (same ▸ member)⟩

/-- A character is found behind a part of the text in which it is not. -/
theorem findChar_eq_some_iff {str : List Char} {c : Char} {pos : Nat}
    : findChar str c 0 = some pos
      ↔ ∃ before after, str = before ++ c :: after ∧ c ∉ before ∧ before.length = pos := by
  have plain : findChar str c 0 = str.findIdx? (fun other => other = c) := by
    unfold findChar
    simp
  rw [plain]
  clear plain
  induction str generalizing pos with
  | nil => simp
  | cons first rest ih =>
      rw [List.findIdx?_cons]
      split
      · rename_i same
        obtain rfl := of_decide_eq_true same
        constructor
        · intro here
          obtain rfl := Option.some.inj here
          exact ⟨[], rest, rfl, by simp, rfl⟩
        · rintro ⟨before, after, split_, absent, rfl⟩
          cases before with
          | nil => rfl
          | cons other before =>
              rw [(List.cons.inj split_).1] at absent
              exact absurd List.mem_cons_self absent
      · rename_i apart
        have apart : first ≠ c := of_decide_eq_false (Bool.eq_false_iff.mpr apart)
        rw [Option.map_eq_some_iff]
        constructor
        · rintro ⟨i, found, rfl⟩
          obtain ⟨before, after, rfl, absent, rfl⟩ := ih.mp found
          refine ⟨first :: before, after, rfl, ?_, rfl⟩
          exact List.not_mem_cons_of_ne_of_not_mem (Ne.symm apart) absent
        · rintro ⟨before, after, split_, absent, rfl⟩
          cases before with
          | nil => exact absurd (List.cons.inj split_).1 apart
          | cons other before =>
              refine ⟨before.length, ih.mpr ⟨before, after, (List.cons.inj split_).2, ?_, rfl⟩, rfl⟩
              exact fun member => absent (List.mem_cons_of_mem _ member)

/-- What is before and behind the first place of a character. -/
theorem eq_of_first {before after before' after' : List Char} {c : Char} (absent : c ∉ before)
    (absent' : c ∉ before') (same : before ++ c :: after = before' ++ c :: after')
    : before = before' ∧ after = after' := by
  have first : findChar (before ++ c :: after) c 0 = some before.length :=
    findChar_eq_some_iff.mpr ⟨before, after, rfl, absent, rfl⟩
  have second : findChar (before ++ c :: after) c 0 = some before'.length :=
    findChar_eq_some_iff.mpr ⟨before', after', same, absent', rfl⟩
  have length := Option.some.inj (first.symm.trans second)
  obtain ⟨front, back⟩ := List.append_inj same length
  exact ⟨front, (List.cons.inj back).2⟩

theorem removePrefix_append (before after : List Char)
    : removePrefix (before ++ after) before.length = some after := by
  unfold removePrefix
  rw [if_pos (by rw [List.length_append]; omega), List.drop_left]

theorem removePrefix_append_cons (before : List Char) (c : Char) (after : List Char)
    : removePrefix (before ++ c :: after) (before.length + 1) = some after := by
  have same := removePrefix_append (before ++ [c]) after
  rwa [List.append_assoc, List.singleton_append, List.length_append] at same

/-- A text whose first characters are those of another one begins with it. -/
theorem take_eq_iff {str start : List Char}
    : str.take start.length = start ↔ ∃ rest, str = start ++ rest := by
  rw [eq_comm, ← List.prefix_iff_eq_take]
  exact ⟨fun ⟨rest, same⟩ => ⟨rest, same.symm⟩, fun ⟨rest, same⟩ => ⟨rest, same.symm⟩⟩

-- Parsing a link

/-- The loop takes the digits behind its position, if there are as many as it asks for. -/
theorem reads_readColor {str : List Char} {count i : Nat} {color : BitVec 32}
    (long : i + count ≤ str.length)
    : Reads (readColor str count i color) (fun color' =>
        (∀ c ∈ (str.drop i).take count, toHex c ≠ 0)
          ∧ color' = ((str.drop i).take count).foldl appendDigit color) := by
  induction count generalizing i color with
  | zero => exact reads_pure (fun color' => by simp)
  | succ count ih =>
      have inside : i < str.length := by omega
      have next : str[i]? = some str[i] := List.getElem?_eq_getElem inside
      have split_ : (str.drop i).take (count + 1) = str[i] :: (str.drop (i + 1)).take count := by
        rw [List.drop_eq_getElem_cons inside, List.take_succ_cons]
      rw [split_]
      unfold readColor
      refine reads_readOf_bind next (reads_guard_bind (fun digit => ?_) (fun other => ?_))
      · refine (@ih (i + 1) (appendDigit color str[i]) (by omega)).congr (fun color' => ?_)
        rw [List.forall_mem_cons, and_iff_right digit, List.foldl_cons]
      · rintro color' ⟨all, _⟩
        exact other (all str[i] List.mem_cons_self)

theorem toHex_ne_zero_iff {c : Char}
    : toHex c ≠ 0 ↔ '0' ≤ c ∧ c ≤ '9' ∨ 'a' ≤ c ∧ c ≤ 'f' := by
  unfold toHex
  by_cases digit : '0' ≤ c ∧ c ≤ '9'
  · rw [if_pos digit]
    refine iff_of_true (fun zero => ?_) (.inl digit)
    have low : c.toNat ≤ '9'.toNat := digit.2
    have none_ := congrArg BitVec.toNat zero
    rw [BitVec.toNat_ofNat] at none_
    simp at none_ low
    omega
  · rw [if_neg digit, or_iff_right digit]
    by_cases letter : 'a' ≤ c ∧ c ≤ 'f'
    · rw [if_pos letter]
      refine iff_of_true (fun zero => ?_) letter
      have low : c.toNat ≤ 'f'.toNat := letter.2
      have none_ := congrArg BitVec.toNat zero
      rw [BitVec.toNat_ofNat] at none_
      simp at none_ low
      omega
    · rw [if_neg letter]
      exact iff_of_false (fun none_ => none_ rfl) letter

structure ColorAt (str : List Char) (parsed : BitVec 32 × List Char) (digits : List Char)
    : Prop where
  eight : digits.length = 8
  hex : ∀ c ∈ digits, '0' ≤ c ∧ c ≤ '9' ∨ 'a' ≤ c ∧ c ≤ 'f'
  color : parsed.1 = digits.foldl appendDigit 0
  str : str = '|' :: 'c' :: (digits ++ parsed.2)

theorem reads_parseColor (str : List Char)
    : Reads (parseColor str) (fun parsed => ∃ digits, ColorAt str parsed digits) := by
  unfold parseColor
  have begins_iff : str.take 2 = "|c".toList ↔ ∃ rest, str = '|' :: 'c' :: rest :=
    @take_eq_iff str ['|', 'c']
  refine reads_guard_bind (fun begins => ?_) (fun other => ?_)
  · obtain ⟨rest, rfl⟩ := begins_iff.mp begins
    -- the digits of a link with this text are its next eight characters
    have next : ∀ {parsed : BitVec 32 × List Char} {digits : List Char},
        ColorAt ('|' :: 'c' :: rest) parsed digits →
          digits = rest.take 8 ∧ parsed.2 = rest.drop 8 := by
      intro parsed digits at_
      obtain rfl : rest = digits ++ parsed.2 := (List.cons.inj (List.cons.inj at_.str).2).2
      rw [← at_.eight, List.take_left, List.drop_left]
      exact ⟨rfl, rfl⟩
    refine reads_readOf_bind (removePrefix_append ['|', 'c'] rest) ?_
    refine reads_guard_bind (fun long => ?_) (fun short => ?_)
    · refine (reads_readColor (by omega)).bind (fun color shape => ?_) (fun none_ => ?_)
      · obtain ⟨hex, rfl⟩ := shape
        rw [List.drop_zero] at hex ⊢
        refine reads_readOf_bind (by rw [removePrefix, if_pos long]) (reads_pure (fun parsed => ?_))
        constructor
        · rintro ⟨digits, at_⟩
          obtain ⟨rfl, tail⟩ := next at_
          exact Prod.ext at_.color tail
        · rintro rfl
          refine ⟨rest.take 8, ?_, fun c member => toHex_ne_zero_iff.mp (hex c member), rfl, ?_⟩
          · rw [List.length_take, min_eq_left long]
          · rw [List.take_append_drop]
      · rintro parsed ⟨digits, at_⟩
        refine none_ _ ⟨fun c member => ?_, rfl⟩
        rw [List.drop_zero, ← (next at_).1] at member
        exact toHex_ne_zero_iff.mpr (at_.hex c member)
    · rintro parsed ⟨digits, at_⟩
      apply short
      have eight := at_.eight
      rw [(next at_).1, List.length_take] at eight
      omega
  · rintro parsed ⟨digits, at_⟩
    exact other (begins_iff.mpr ⟨_, at_.str⟩)

structure SplitAt (tag : List Char) (parsed : List Char × List Char) (data : Option (List Char))
    : Prop where
  name : ':' ∉ parsed.1
  value : parsed.2 = data.getD []
  tag : tag = parsed.1 ++ dataChars data

theorem reads_splitTag (tag : List Char)
    : Reads (splitTag tag) (fun parsed => ∃ data, SplitAt tag parsed data) := by
  unfold splitTag
  cases found : findChar tag ':' 0 with
  | none =>
      have absent := findChar_eq_none_iff.mp found
      refine reads_pure (fun parsed => ?_)
      constructor
      · rintro ⟨data, name, same, rfl⟩
        cases data with
        | none => exact Prod.ext (List.append_nil _).symm same
        | some data => exact absurd (List.mem_append_right _ List.mem_cons_self) absent
      · rintro rfl
        exact ⟨none, absent, rfl, (List.append_nil _).symm⟩
  | some dataStart =>
      obtain ⟨before, after, rfl, absent, rfl⟩ := findChar_eq_some_iff.mp found
      refine reads_readOf_bind (removePrefix_append_cons before ':' after)
        (reads_pure (fun parsed => ?_))
      rw [List.take_left]
      constructor
      · rintro ⟨data, name, same, split_⟩
        cases data with
        | none =>
            rw [dataChars.eq_def, List.append_nil] at split_
            rw [← split_] at name
            exact absurd (List.mem_append_right _ List.mem_cons_self) name
        | some data =>
            obtain ⟨first, last⟩ := eq_of_first absent name split_
            exact Prod.ext first.symm (same.trans last.symm)
      · rintro rfl
        exact ⟨some after, absent, rfl, rfl⟩

structure TagAt (str : List Char) (parsed : (List Char × List Char) × List Char)
    (data : Option (List Char)) : Prop where
  free : '|' ∉ parsed.1.1 ++ dataChars data
  name : ':' ∉ parsed.1.1
  value : parsed.1.2 = data.getD []
  str : str = '|' :: 'H' :: (parsed.1.1 ++ dataChars data ++ '|' :: parsed.2)

theorem reads_parseTag (str : List Char)
    : Reads (parseTag str) (fun parsed => ∃ data, TagAt str parsed data) := by
  unfold parseTag
  have begins_iff : str.take 2 = "|H".toList ↔ ∃ rest, str = '|' :: 'H' :: rest :=
    @take_eq_iff str ['|', 'H']
  refine reads_guard_bind (fun begins => ?_) (fun other => ?_)
  · obtain ⟨rest, rfl⟩ := begins_iff.mp begins
    refine reads_readOf_bind (removePrefix_append ['|', 'H'] rest) ?_
    refine reads_searchOf_bind (fun delimPos found => ?_) (fun none_ => ?_)
    · obtain ⟨tag, after, rfl, free, rfl⟩ := findChar_eq_some_iff.mp found
      rw [List.take_left]
      -- a link with this text has this tag before its first pipe
      have next : ∀ {parsed data}, TagAt ('|' :: 'H' :: (tag ++ '|' :: after)) parsed data →
          parsed.1.1 ++ dataChars data = tag ∧ parsed.2 = after := by
        intro parsed data at_
        have same := (List.cons.inj (List.cons.inj at_.str).2).2
        obtain ⟨first, last⟩ := eq_of_first free at_.free same
        exact ⟨first.symm, last.symm⟩
      refine (reads_splitTag tag).bind (fun parsed shape => ?_) (fun none_ => ?_)
      · obtain ⟨data, name, value, rfl⟩ := shape
        refine reads_readOf_bind (removePrefix_append_cons _ '|' after)
          (reads_pure (fun other => ?_))
        constructor
        · rintro ⟨data', at_⟩
          obtain ⟨first, last⟩ := next at_
          exact Prod.ext
            ((reads_splitTag _).unique ⟨data', at_.name, at_.value, first.symm⟩
              ⟨data, name, value, rfl⟩) last
        · rintro rfl
          exact ⟨data, free, name, value, rfl⟩
      · rintro parsed ⟨data, at_⟩
        exact none_ parsed.1 ⟨data, at_.name, at_.value, (next at_).1.symm⟩
    · rintro parsed ⟨data, at_⟩
      apply findChar_eq_none_iff.mp none_
      rw [(List.cons.inj (List.cons.inj at_.str).2).2]
      exact List.mem_append_right _ List.mem_cons_self
  · rintro parsed ⟨data, at_⟩
    exact other (begins_iff.mpr ⟨_, at_.str⟩)

/-- The brackets are the first and the last character of what is before the end of the link. -/
theorem reads_parseBrackets {before tail : List Char}
    : Reads (parseBrackets (before ++ '|' :: 'h' :: '|' :: 'r' :: tail) before.length)
        (fun parsed => before = '[' :: (parsed.1 ++ [']']) ∧ parsed.2 = tail) := by
  unfold parseBrackets
  cases before with
  | nil =>
      -- the first character is a pipe
      refine reads_readOf_bind rfl (reads_guard_bind (fun first => ?_) (fun _ => ?_))
      · exact absurd first (by decide)
      · rintro parsed ⟨same, _⟩
        cases same
  | cons first inner =>
      refine reads_readOf_bind rfl (reads_guard_bind (fun bracket => ?_) (fun other => ?_))
      · subst bracket
        rcases List.eq_nil_or_concat' inner with rfl | ⟨text, last, rfl⟩
        · -- the first bracket is the last character, too
          refine reads_readOf_bind rfl (reads_guard_bind (fun closing => ?_) (fun _ => ?_))
          · exact absurd closing (by decide)
          · rintro parsed ⟨same, _⟩
            simp at same
        · have atLast : (if ('[' :: (text ++ [last])).length = 0 then none
              else ('[' :: (text ++ [last]) ++ '|' :: 'h' :: '|' :: 'r' :: tail)[
                ('[' :: (text ++ [last])).length - 1]?) = some last := by
            simp
          have inside : substr ('[' :: (text ++ [last]) ++ '|' :: 'h' :: '|' :: 'r' :: tail)
              1 (('[' :: (text ++ [last])).length - 2) = some text := by
            simp [substr]
          have behind : removePrefix
              ('[' :: (text ++ [last]) ++ '|' :: 'h' :: '|' :: 'r' :: tail)
              (('[' :: (text ++ [last])).length + 4) = some tail := by
            have whole := removePrefix_append ('[' :: (text ++ [last]) ++ ['|', 'h', '|', 'r']) tail
            rwa [List.append_assoc, List.length_append] at whole
          refine reads_readOf_bind atLast (reads_guard_bind (fun closing => ?_) (fun other => ?_))
          · subst closing
            refine reads_readOf_bind inside (reads_readOf_bind behind (reads_pure (fun parsed => ?_)))
            constructor
            · rintro ⟨same, rfl⟩
              have texts := List.append_cancel_right (List.cons.inj same).2
              exact Prod.ext texts.symm rfl
            · rintro rfl
              exact ⟨rfl, rfl⟩
          · rintro parsed ⟨same, _⟩
            have texts := List.append_inj' (List.cons.inj same).2 rfl
            exact other (List.cons.inj texts.2).1
      · rintro parsed ⟨same, _⟩
        exact other (List.cons.inj same).1

/-- A text in brackets up to the end of a link, and what follows the link. -/
structure TextAt (str : List Char) (parsed : List Char × List Char) : Prop where
  free : '|' ∉ parsed.1
  str : str = 'h' :: '[' :: (parsed.1 ++ ']' :: '|' :: 'h' :: '|' :: 'r' :: parsed.2)

theorem reads_parseText (str : List Char) : Reads (parseText str) (TextAt str) := by
  unfold parseText
  have begins_iff : str.take 1 = "h".toList ↔ ∃ rest, str = 'h' :: rest := @take_eq_iff str ['h']
  refine reads_guard_bind (fun begins => ?_) (fun other => ?_)
  · obtain ⟨rest, rfl⟩ := begins_iff.mp begins
    refine reads_readOf_bind (removePrefix_append ['h'] rest) ?_
    refine reads_searchOf_bind (fun stop found => ?_) (fun none_ => ?_)
    · obtain ⟨before, after, rfl, free, rfl⟩ := findChar_eq_some_iff.mp found
      -- a link with this text has its brackets before this pipe
      have next : ∀ {parsed}, TextAt ('h' :: (before ++ '|' :: after)) parsed →
          before = '[' :: (parsed.1 ++ [']']) ∧ after = 'h' :: '|' :: 'r' :: parsed.2 := by
        intro parsed at_
        refine eq_of_first free (by simp [at_.free]) ?_
        rw [(List.cons.inj at_.str).2]
        simp
      have atEnd : substr (before ++ '|' :: after) before.length 4
          = some (('|' :: after).take 4) := by
        rw [substr, if_pos (by rw [List.length_append]; omega), List.drop_left]
      refine reads_readOf_bind atEnd (reads_guard_bind (fun ends => ?_) (fun other => ?_))
      · obtain ⟨tail, same⟩ := (@take_eq_iff ('|' :: after) ['|', 'h', '|', 'r']).mp ends
        obtain rfl : after = 'h' :: '|' :: 'r' :: tail := (List.cons.inj same).2
        refine reads_parseBrackets.congr (fun parsed => ?_)
        constructor
        · rintro ⟨rfl, rfl⟩
          refine ⟨fun member => free ?_, by simp⟩
          exact List.mem_cons_of_mem _ (List.mem_append_left _ member)
        · intro at_
          obtain ⟨same, same'⟩ := next at_
          simp only [List.cons.injEq, true_and] at same'
          exact ⟨same, same'.symm⟩
      · rintro parsed at_
        apply other
        rw [(next at_).2]
        rfl
    · rintro parsed at_
      apply findChar_eq_none_iff.mp none_
      rw [(List.cons.inj at_.str).2]
      simp
  · rintro parsed at_
    exact other (begins_iff.mpr ⟨_, at_.str⟩)

namespace Hyperlink

def textChars (link : Hyperlink) (tail : List Char) : List Char :=
  'h' :: '[' :: (link.text ++ ']' :: '|' :: 'h' :: '|' :: 'r' :: tail)

def tagChars (link : Hyperlink) (tail : List Char) : List Char :=
  '|' :: 'H' :: (link.tag ++ dataChars link.data ++ '|' :: link.textChars tail)

theorem toChars_append (link : Hyperlink) (tail : List Char)
    : link.toChars ++ tail = '|' :: 'c' :: (link.digits ++ link.tagChars tail) := by
  simp [toChars, tagChars, textChars]

variable {link : Hyperlink} {tail : List Char}

theorem Formed.colorAt (formed : link.Formed)
    : ColorAt (link.toChars ++ tail) (link.color, link.tagChars tail) link.digits :=
  ⟨formed.eight, formed.digits, rfl, link.toChars_append tail⟩

theorem Formed.tagAt (formed : link.Formed)
    : TagAt (link.tagChars tail) ((link.tag, link.data.getD []), link.textChars tail)
        link.data := by
  refine ⟨fun member => ?_, formed.tag.2, rfl, rfl⟩
  rcases List.mem_append.mp member with tag | data
  · exact formed.tag.1 tag
  · cases found : link.data with
    | none =>
        rw [found] at data
        cases data
    | some value =>
        rw [found] at data
        rcases List.mem_cons.mp data with colon | inside
        · cases colon
        · exact formed.data value found inside

theorem Formed.textAt (formed : link.Formed)
    : TextAt (link.textChars tail) (link.text, tail) :=
  ⟨formed.text, rfl⟩

end Hyperlink

/-- What is parsed from a text are the links with which it begins. -/
theorem reads_parseSingleHyperlink (str : List Char)
    : Reads (parseSingleHyperlink str) (fun info => ∃ link : Hyperlink, link.Formed
        ∧ info = link.info info.tail ∧ str = link.toChars ++ info.tail) := by
  unfold parseSingleHyperlink
  refine (reads_parseColor str).bind (fun parsed shape => ?_) (fun none_ => ?_)
  · obtain ⟨color, afterColor⟩ := parsed
    -- a link with which the text begins has this colour
    have colored : ∀ {link : Hyperlink} {tail}, link.Formed → str = link.toChars ++ tail →
        color = link.color ∧ afterColor = link.tagChars tail := by
      intro link tail formed same
      have both : (color, afterColor) = (link.color, link.tagChars tail) :=
        (reads_parseColor str).unique shape ⟨link.digits, same ▸ formed.colorAt⟩
      exact Prod.mk.inj both
    dsimp only
    refine (reads_parseTag afterColor).bind (fun parsed shape' => ?_) (fun none_ => ?_)
    · obtain ⟨⟨tag, data⟩, afterTag⟩ := parsed
      have tagged : ∀ {link : Hyperlink} {tail}, link.Formed → str = link.toChars ++ tail →
          (tag, data) = (link.tag, link.data.getD []) ∧ afterTag = link.textChars tail := by
        intro link tail formed same
        have both : ((tag, data), afterTag)
            = ((link.tag, link.data.getD []), link.textChars tail) :=
          (reads_parseTag afterColor).unique shape'
            ⟨link.data, (colored formed same).2 ▸ formed.tagAt⟩
        exact Prod.mk.inj both
      dsimp only
      refine (reads_parseText afterTag).bind (fun parsed shape'' => ?_) (fun none_ => ?_)
      · obtain ⟨text, tail⟩ := parsed
        dsimp only
        refine reads_pure (fun info => ?_)
        constructor
        · rintro ⟨link, formed, same, begins⟩
          have last : (text, tail) = (link.text, info.tail) :=
            (reads_parseText afterTag).unique shape'' ((tagged formed begins).2 ▸ formed.textAt)
          obtain ⟨rfl, rfl⟩ := Prod.mk.inj last
          obtain ⟨rfl, rfl⟩ := Prod.mk.inj (tagged formed begins).1
          rw [(colored formed begins).1]
          exact same
        · rintro rfl
          obtain ⟨digits, eight, hex, rfl, rfl⟩ := shape
          obtain ⟨part, free, name, rfl, rfl⟩ := shape'
          obtain ⟨free', rfl⟩ := shape''
          let link : Hyperlink := { digits, tag, data := part, text }
          have formed : link.Formed := by
            refine ⟨eight, hex, ⟨fun member => ?_, name⟩, fun data found member => ?_, free'⟩
            · exact free (List.mem_append_left _ member)
            · obtain rfl : part = some data := found
              exact free (List.mem_append_right _ (List.mem_cons_of_mem _ member))
          exact ⟨link, formed, rfl, (link.toChars_append tail).symm⟩
      · rintro info ⟨link, formed, _, begins⟩
        exact none_ _ ((tagged formed begins).2 ▸ formed.textAt)
    · rintro info ⟨link, formed, _, begins⟩
      exact none_ _ ⟨link.data, (colored formed begins).2 ▸ formed.tagAt⟩
  · rintro info ⟨link, formed, _, begins⟩
    exact none_ _ ⟨link.digits, begins ▸ formed.colorAt⟩

-- Known sequences

/-- Every pipe is followed by a control character, with which it makes a pair. -/
inductive KnownSequences : List Char → Prop
  | done : KnownSequences []
  | plain {c : Char} {rest : List Char} (plain : c ≠ '|') (later : KnownSequences rest)
      : KnownSequences (c :: rest)
  | pair {next : Char} {rest : List Char} (control : next ∈ controlCharacters)
      (later : KnownSequences rest)
      : KnownSequences ('|' :: next :: rest)

theorem knownSequences_cons {c : Char} {rest : List Char} (apart : c ≠ '|')
    : KnownSequences (c :: rest) ↔ KnownSequences rest := by
  constructor
  · intro known
    cases known with
    | plain _ later => exact later
    | pair => exact absurd rfl apart
  · exact .plain apart

theorem knownSequences_append {before rest : List Char} (free : '|' ∉ before)
    : KnownSequences (before ++ rest) ↔ KnownSequences rest := by
  induction before with
  | nil => rfl
  | cons c before ih =>
      rw [List.mem_cons, not_or] at free
      rw [List.cons_append, knownSequences_cons (Ne.symm free.1), ih free.2]

theorem knownSequences_pair {next : Char} {rest : List Char}
    : KnownSequences ('|' :: next :: rest)
      ↔ next ∈ controlCharacters ∧ KnownSequences rest := by
  constructor
  · intro known
    cases known with
    | plain apart => exact absurd rfl apart
    | pair control later => exact ⟨control, later⟩
  · exact fun both => .pair both.1 both.2

theorem findChar_drop (str : List Char) (c : Char) (pos : Nat)
    : findChar str c pos = (findChar (str.drop pos) c 0).map (fun i => pos + i) := by
  simp [findChar]

/-- The first step ends at a pair that is not known or at the end, by induction on what is left. -/
theorem exists_checkSequences {str : List Char} (left : Nat) {pos : Nat}
    (enough : str.length - pos < left)
    : ∃ known : Bool, (known = true ↔ KnownSequences (str.drop pos))
        ∧ ∀ fuel ≥ left, checkSequences str fuel pos = some known := by
  induction left generalizing pos with
  | zero => exact absurd enough (Nat.not_lt_zero _)
  | succ left ih =>
      have step : ∀ fuel ≥ left + 1, ∃ fewer ≥ left, fuel = fewer + 1 :=
        fun fuel le => ⟨fuel - 1, by omega, by omega⟩
      cases found : findChar (str.drop pos) '|' 0 with
      | none =>
          have known : KnownSequences (str.drop pos) := by
            rw [← List.append_nil (str.drop pos),
              knownSequences_append (findChar_eq_none_iff.mp found)]
            exact .done
          refine ⟨true, iff_of_true rfl known, fun fuel le => ?_⟩
          obtain ⟨fewer, _, rfl⟩ := step fuel le
          rw [checkSequences, findChar_drop, found]
          rfl
      | some i =>
          obtain ⟨before, after, split_, free, rfl⟩ := findChar_eq_some_iff.mp found
          have length : str.length - pos = before.length + (after.length + 1) := by
            rw [← List.length_drop, split_, List.length_append, List.length_cons]
          have here : findChar str '|' pos = some (pos + before.length) := by
            rw [findChar_drop, found]
            rfl
          rw [split_, knownSequences_append free]
          cases after with
          | nil =>
              refine ⟨false, iff_of_false (by decide) (fun known => ?_), fun fuel le => ?_⟩
              · cases known with
                | plain apart => exact absurd rfl apart
              · obtain ⟨fewer, _, rfl⟩ := step fuel le
                rw [List.length_nil] at length
                rw [checkSequences, here]
                dsimp only
                rw [if_pos (by omega)]
          | cons next rest =>
              rw [List.length_cons] at length
              have behind : str.drop (pos + before.length + 1) = next :: rest := by
                rw [Nat.add_assoc, ← List.drop_drop, split_, ← List.drop_drop, List.drop_left]
                rfl
              have there : str[pos + before.length + 1]? = some next := by
                rw [← List.head?_drop, behind]
                rfl
              have later : str.drop (pos + before.length + 1 + 1) = rest := by
                rw [← List.drop_drop, behind]
                rfl
              obtain ⟨known, right, all⟩ := @ih (pos + before.length + 2) (by omega)
              rw [later] at right
              rw [knownSequences_pair]
              by_cases control : next ∈ controlCharacters
              · refine ⟨known, by rw [right, and_iff_right control], fun fuel le => ?_⟩
                obtain ⟨fewer, le', rfl⟩ := step fuel le
                rw [checkSequences, here]
                dsimp only
                rw [if_neg (by omega), there, Option.bind_eq_bind, Option.bind_some,
                  if_pos control]
                exact all fewer le'
              · refine ⟨false, iff_of_false (by decide) (fun both => control both.1),
                  fun fuel le => ?_⟩
                obtain ⟨fewer, _, rfl⟩ := step fuel le
                rw [checkSequences, here]
                dsimp only
                rw [if_neg (by omega), there, Option.bind_eq_bind, Option.bind_some,
                  if_neg control]

-- Messages

section Messages

variable {V : Type} {config : LinkConfig V} {isLink : Hyperlink → Prop}

theorem LinkTag.mem_all (tag : LinkTag) : tag ∈ LinkTag.all := by
  cases tag <;> decide

/-- Tags are told apart by their names. -/
theorem LinkTag.tag_injective {tag other : LinkTag} (same : tag.tag = other.tag) : tag = other := by
  have apart : (LinkTag.all.map LinkTag.tag).Nodup := by decide +kernel
  exact List.inj_on_of_nodup_map apart tag.mem_all other.mem_all same

theorem Hyperlink.valid_iff {link : Hyperlink} {tail : List Char}
    : validateLinkInfo config (link.info tail) = true ↔ link.Valid config := by
  unfold validateLinkInfo Valid
  cases found : LinkTag.all.find? (fun tag => (link.info tail).tag = tag.tag) with
  | none =>
      refine iff_of_false (by simp) ?_
      rintro ⟨tag, same, _⟩
      have other := List.find?_eq_none.mp found tag tag.mem_all
      exact other (decide_eq_true same)
  | some tag =>
      have chosen := List.find?_some found
      have same : link.tag = tag.tag := of_decide_eq_true chosen
      constructor
      · intro valid
        exact ⟨tag, same, valid⟩
      · rintro ⟨other, same', valid⟩
        obtain rfl : tag = other := LinkTag.tag_injective (same.symm.trans same')
        exact valid

theorem message_cons {c : Char} {rest : List Char} (apart : c ≠ '|')
    : Message isLink (c :: rest) ↔ Message isLink rest := by
  constructor
  · intro message
    generalize whole : c :: rest = str at message
    cases message with
    | done => cases whole
    | plain _ later =>
        obtain ⟨rfl, rfl⟩ := List.cons.inj whole
        exact later
    | escaped => exact absurd (List.cons.inj whole).1 apart
    | link link => exact absurd (List.cons.inj whole).1 apart
  · exact .plain apart

theorem message_append {before rest : List Char} (free : '|' ∉ before)
    : Message isLink (before ++ rest) ↔ Message isLink rest := by
  induction before with
  | nil => rfl
  | cons c before ih =>
      rw [List.mem_cons, not_or] at free
      rw [List.cons_append, message_cons (Ne.symm free.1), ih free.2]

theorem message_escaped {rest : List Char}
    : Message isLink ('|' :: '|' :: rest) ↔ Message isLink rest := by
  constructor
  · intro message
    generalize whole : '|' :: '|' :: rest = str at message
    cases message with
    | done => cases whole
    | plain apart => exact absurd (List.cons.inj whole).1.symm apart
    | escaped later =>
        rw [(List.cons.inj (List.cons.inj whole).2).2]
        exact later
    | link link =>
        have second := (List.cons.inj (List.cons.inj whole).2).1
        exact absurd second (by decide)
  · exact .escaped

/-- A message that begins with a lone pipe is a link and a message behind it. -/
theorem message_pipe_iff {next : Char} {rest : List Char} (lone : next ≠ '|')
    : Message isLink ('|' :: next :: rest)
      ↔ ∃ (link : Hyperlink) (tail : List Char), isLink link
        ∧ '|' :: next :: rest = link.toChars ++ tail ∧ Message isLink tail := by
  constructor
  · intro message
    generalize whole : '|' :: next :: rest = str at message
    cases message with
    | done => cases whole
    | plain apart => exact absurd (List.cons.inj whole).1.symm apart
    | escaped => exact absurd (List.cons.inj (List.cons.inj whole).2).1 lone
    | @link tail link holds later => exact ⟨link, tail, holds, rfl, later⟩
  · rintro ⟨link, tail, holds, same, later⟩
    rw [same]
    exact .link link holds later

/-- The pipes of a link make known pairs. -/
theorem knownSequences_toChars_iff {link : Hyperlink} {tail : List Char} (formed : link.Formed)
    : KnownSequences (link.toChars ++ tail) ↔ KnownSequences tail := by
  have digits : '|' ∉ link.digits := by
    intro member
    exact absurd (formed.digits '|' member) (by decide)
  rw [link.toChars_append, knownSequences_pair, knownSequences_append digits]
  unfold Hyperlink.tagChars
  rw [knownSequences_pair, knownSequences_append (@Hyperlink.Formed.tagAt link tail formed).free]
  unfold Hyperlink.textChars
  rw [knownSequences_pair, knownSequences_cons (by decide), knownSequences_append formed.text,
    knownSequences_cons (by decide), knownSequences_pair, knownSequences_pair]
  simp [controlCharacters]

theorem knownSequences_of_message {str : List Char}
    (message : Message (Hyperlink.Accepted config) str)
    : KnownSequences str := by
  induction message with
  | done => exact .done
  | plain apart _ ih => exact .plain apart ih
  | escaped _ ih => exact .pair (by decide) ih
  | link link holds _ ih => exact (knownSequences_toChars_iff holds.1).mpr ih

theorem findChar_of_first {before after : List Char} (free : '|' ∉ before)
    : findChar (before ++ '|' :: after) '|' 0 = some before.length :=
  findChar_eq_some_iff.mpr ⟨before, after, rfl, free, rfl⟩

theorem checkLinks_of_escaped {before rest : List Char} (free : '|' ∉ before) (fuel : Nat)
    : checkLinks config (fuel + 1) (before ++ '|' :: '|' :: rest)
      = checkLinks config fuel rest := by
  have there : (before ++ '|' :: '|' :: rest)[before.length + 1]? = some '|' := by simp
  have behind : removePrefix (before ++ '|' :: '|' :: rest) (before.length + 2) = some rest := by
    have whole := removePrefix_append (before ++ ['|', '|']) rest
    rwa [List.append_assoc, List.length_append] at whole
  rw [checkLinks, findChar_of_first free]
  dsimp only
  rw [there, Option.bind_eq_bind, Option.bind_some, if_pos rfl, behind, Option.bind_eq_bind,
    Option.bind_some]

theorem checkLinks_of_pipe {before rest : List Char} {next : Char} (free : '|' ∉ before)
    (lone : next ≠ '|') {result : Option HyperlinkInfo} (fuel : Nat)
    : (parseSingleHyperlink ('|' :: next :: rest)).run = some result →
      checkLinks config (fuel + 1) (before ++ '|' :: next :: rest)
        = match result with
          | none => some false
          | some info =>
              if validateLinkInfo config info then checkLinks config fuel info.tail
              else some false := by
  intro run
  have there : (before ++ '|' :: next :: rest)[before.length + 1]? = some next := by simp
  rw [checkLinks, findChar_of_first free]
  dsimp only
  rw [there, Option.bind_eq_bind, Option.bind_some, if_neg lone, removePrefix_append,
    Option.bind_eq_bind, Option.bind_some, run, Option.bind_eq_bind, Option.bind_some]

/-- The second step takes a text of known pairs piece by piece, by induction on the fuel. It reads
nothing behind the end, since every pipe of such a text is followed by something.
-/
theorem exists_checkLinks (enough : Nat) {str : List Char} (short : str.length < enough)
    (known : KnownSequences str)
    : ∃ accepted : Bool, (accepted = true ↔ Message (Hyperlink.Accepted config) str)
        ∧ ∀ fuel ≥ enough, checkLinks config fuel str = some accepted := by
  induction enough generalizing str with
  | zero => exact absurd short (Nat.not_lt_zero _)
  | succ enough ih =>
      have step : ∀ fuel ≥ enough + 1, ∃ fewer ≥ enough, fuel = fewer + 1 :=
        fun fuel le => ⟨fuel - 1, by omega, by omega⟩
      cases found : findChar str '|' 0 with
      | none =>
          have message : Message (Hyperlink.Accepted config) str := by
            rw [← List.append_nil str, message_append (findChar_eq_none_iff.mp found)]
            exact .done
          refine ⟨true, iff_of_true rfl message, fun fuel le => ?_⟩
          obtain ⟨fewer, _, rfl⟩ := step fuel le
          rw [checkLinks, found]
      | some pos =>
          obtain ⟨before, after, rfl, free, rfl⟩ := findChar_eq_some_iff.mp found
          rw [knownSequences_append free] at known
          cases after with
          | nil =>
              cases known with
              | plain apart => exact absurd rfl apart
          | cons next rest =>
              simp only [List.length_append, List.length_cons] at short
              rw [message_append free]
              by_cases lone : next = '|'
              · subst lone
                obtain ⟨accepted, right, all⟩ := ih (by omega) (knownSequences_pair.mp known).2
                refine ⟨accepted, by rw [right, message_escaped], fun fuel le => ?_⟩
                obtain ⟨fewer, le', rfl⟩ := step fuel le
                rw [checkLinks_of_escaped free]
                exact all fewer le'
              · rw [message_pipe_iff lone]
                obtain ⟨result, run, shape⟩ := reads_parseSingleHyperlink ('|' :: next :: rest)
                -- every link with which the text begins is the one that is parsed
                have parsed : ∀ {link : Hyperlink} {tail}, link.Formed →
                    '|' :: next :: rest = link.toChars ++ tail → result = some (link.info tail) :=
                  fun {link tail} formed begins =>
                    (shape (link.info tail)).mpr ⟨link, formed, rfl, begins⟩
                cases result with
                | none =>
                    refine ⟨false, iff_of_false (by decide) ?_, fun fuel le => ?_⟩
                    · rintro ⟨link, tail, ⟨formed, _⟩, begins, _⟩
                      cases parsed formed begins
                    · obtain ⟨fewer, _, rfl⟩ := step fuel le
                      exact checkLinks_of_pipe free lone fewer run
                | some info =>
                    obtain ⟨link, formed, same, begins⟩ := (shape info).mp rfl
                    by_cases valid : link.Valid config
                    · rw [begins] at known
                      have shorter : info.tail.length < enough := by
                        have lengths := congrArg List.length begins
                        rw [link.toChars_append] at lengths
                        simp only [List.length_cons, List.length_append, Hyperlink.tagChars,
                          Hyperlink.textChars] at lengths
                        omega
                      obtain ⟨accepted, right, all⟩ :=
                        ih shorter ((knownSequences_toChars_iff formed).mp known)
                      refine ⟨accepted, right.trans ⟨fun later => ?_, ?_⟩, fun fuel le => ?_⟩
                      · exact ⟨link, info.tail, ⟨formed, valid⟩, begins, later⟩
                      · rintro ⟨other, tail, ⟨formed', _⟩, begins', later⟩
                        rw [Option.some.inj (parsed formed' begins')]
                        exact later
                      · obtain ⟨fewer, le', rfl⟩ := step fuel le
                        rw [checkLinks_of_pipe free lone fewer run]
                        dsimp only
                        rw [if_pos (same ▸ Hyperlink.valid_iff.mpr valid)]
                        exact all fewer le'
                    · refine ⟨false, iff_of_false (by decide) ?_, fun fuel le => ?_⟩
                      · rintro ⟨other, tail, ⟨formed', valid'⟩, begins', _⟩
                        have theirs := Option.some.inj (parsed formed' begins')
                        apply valid
                        rw [← @Hyperlink.valid_iff _ _ _ info.tail, ← same, theirs]
                        exact Hyperlink.valid_iff.mpr valid'
                      · obtain ⟨fewer, _, rfl⟩ := step fuel le
                        rw [checkLinks_of_pipe free lone fewer run]
                        dsimp only
                        rw [if_neg (fun right => valid (Hyperlink.valid_iff.mp (same ▸ right)))]

/-- Every message is accepted or not, without a read behind its end, and it is accepted if and only
if it is made of plain characters, escaped pipes and links.
Witness: only messages of known pairs come to the second step.
-/
theorem checkAllLinks_iff_message (config : LinkConfig V) (str : List Char)
    : ∃ accepted : Bool, (accepted = true ↔ Message (Hyperlink.Accepted config) str)
        ∧ ∀ fuel > str.length, checkAllLinks config fuel str = some accepted := by
  obtain ⟨known, right, all⟩ := @exists_checkSequences str (str.length + 1) 0 (by omega)
  rw [List.drop_zero] at right
  cases known with
  | false =>
      refine ⟨false, iff_of_false (by decide) (fun message => ?_), fun fuel le => ?_⟩
      · exact absurd (right.mpr (knownSequences_of_message message)) (by decide)
      · rw [checkAllLinks, all fuel le]
        rfl
  | true =>
      obtain ⟨accepted, right', all'⟩ :=
        @exists_checkLinks _ config (str.length + 1) str (by omega) (right.mp rfl)
      refine ⟨accepted, right', fun fuel le => ?_⟩
      rw [checkAllLinks, all fuel le]
      exact all' fuel le

/-- A link without data is accepted, though no link with data is in the message. -/
theorem checkAllLinks_without_data
    : let validators : LinkValidators Unit :=
        ⟨fun _ _ => none, fun _ _ _ => true, fun _ _ _ => true⟩
      let config : LinkConfig Unit := { validators, severity := 1 }
      let str := "|c00000000|Hplayer|h[]|h|r".toList
      checkAllLinks config (str.length + 1) str = some true
        ∧ ¬Message (fun link => link.Accepted config ∧ link.data.isSome) str := by
  refine ⟨by decide +kernel, fun message => ?_⟩
  obtain ⟨link, tail, ⟨_, some_⟩, same, _⟩ := (message_pipe_iff (by decide)).mp message
  obtain ⟨data, found⟩ := Option.isSome_iff_exists.mp some_
  have colon : ':' ∈ link.toChars ++ tail := by
    simp [Hyperlink.toChars, found, dataChars]
  rw [← same] at colon
  exact absurd colon (by decide)

end Messages

end WarheadCore.Chat
