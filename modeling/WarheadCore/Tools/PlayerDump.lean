import Mathlib.Data.List.TakeWhile
import Mathlib.Data.List.Infix

/-! Dumps of characters: the rows that are written, and how a column is found in one again. The
finder knows a quote within a value only by the backslash before it.
-/

namespace WarheadCore.Tools

abbrev Text := List Char

-- Writing a row

/-- The table is one of the database, the names of which have no quotes. -/
structure TableStruct where
  tableName : Text
  tableFields : List Text
  distinct : tableFields.Nodup
  unquoted : '\'' ∉ tableName ∧ ∀ field ∈ tableFields, '\'' ∉ field

/-- `mysql_real_escape_string`, for one character. -/
def escapeChar (c : Char) : Text :=
  if c = Char.ofNat 0 then ['\\', '0']
  else if c = '\n' then ['\\', 'n']
  else if c = '\r' then ['\\', 'r']
  else if c = Char.ofNat 26 then ['\\', 'Z']
  else if c = '\'' ∨ c = '"' ∨ c = '\\' then ['\\', c]
  else [c]

def escapeString (value : Text) : Text := value.flatMap escapeChar

/-- What stands between the quotes. -/
def written (value : Text) : Text :=
  if value.isEmpty then "NULL".toList else escapeString value

def fieldList : List Text → Text
  | [] => []
  | [field] => "`".toList ++ field ++ "`".toList
  | field :: rest => "`".toList ++ field ++ "`, ".toList ++ fieldList rest

/-- The end of a row, after the quote that closes a value: the other values. -/
def restOfRow : List Text → Text
  | [] => ");".toList
  | text :: texts => ", '".toList ++ text ++ '\'' :: restOfRow texts

def quotedValues : List Text → Text
  | [] => ");".toList
  | text :: texts => '\'' :: text ++ '\'' :: restOfRow texts

def rowStart (ts : TableStruct) : Text :=
  "INSERT INTO `".toList ++ ts.tableName ++ "` (".toList ++ fieldList ts.tableFields
    ++ ") ".toList

/-- The row that AppendTableDump writes for values of which this is written. -/
def rowOf (ts : TableStruct) (texts : List Text) : Text :=
  rowStart ts ++ "VALUES (".toList ++ quotedValues texts

-- Finding a column

/-- `str.find(c, s)` -/
def find (c : Char) (str : Text) (s : Nat) : Option Nat :=
  ((str.drop s).findIdx? (· == c)).map (s + ·)

/-- `str.find(pattern)` -/
def findText (pattern : Text) : Text → Option Nat
  | [] => none
  | c :: rest =>
      if pattern.isPrefixOf (c :: rest) then some 0 else (findText pattern rest).map (· + 1)

theorem find_bounds {c : Char} {str : Text} {s e : Nat} (found : find c str s = some e)
    : s ≤ e ∧ e < str.length := by
  obtain ⟨index, at_, rfl⟩ := Option.map_eq_some_iff.mp found
  have below := (List.findIdx?_eq_some_iff_findIdx_eq.mp at_).1
  rw [List.length_drop] at below
  omega

/-- How the finder ends, if it does. -/
inductive Outcome where
  | never
  | missing
  | found (s e : Nat)
deriving DecidableEq

/-- The inner loop for a later column, from the end of the column before it. -/
def nextColumn (str : Text) (e : Nat) : Option (Nat × Nat) :=
  match found : find '\'' str (e + 4) with
  | none => none
  | some next => if str[next - 1]? = some '\\' then nextColumn str next else some (e + 4, next)
termination_by str.length - e
decreasing_by
  have := find_bounds found
  omega

def laterColumn (str : Text) : Nat → Nat × Nat → Option (Nat × Nat)
  | 0, span => some span
  | columns + 1, span => (nextColumn str span.2).bind (laterColumn str columns)

/-- The first loop looks for a quote from the same place each time, so that it goes on for ever
where it does not end at once.
-/
def findColumn (ts : TableStruct) (str column : Text) : Outcome :=
  match ts.tableFields.idxOf? column with
  | none => .missing
  | some columnIndex =>
      match findText "VALUES ('".toList str with
      | none => .missing
      | some values =>
          let s := values + 9
          match find '\'' str s with
          | none => .missing
          | some e =>
              if str[e - 1]? = some '\\' then .never
              else
                match laterColumn str columnIndex (s, e) with
                | none => .missing
                | some (s, e) => .found s e

/-- There is no result where the finder does not end. -/
def getColumn (ts : TableStruct) (str column : Text) : Option Text :=
  match findColumn ts str column with
  | .never => none
  | .missing => some []
  | .found s e => some ((str.drop s).take (e - s))

def changeColumn (ts : TableStruct) (str column with_ : Text) (allowZero : Bool)
    : Option (Bool × Text) :=
  match findColumn ts str column with
  | .never => none
  | .missing => some (false, str)
  | .found s e =>
      if allowZero && (str.drop s).take (e - s) == ['0'] then some (true, str)
      else some (true, str.take s ++ with_ ++ str.drop e)

-- Quotes in what is written

/-- Neither a quote within the value nor a backslash at its end. -/
def Plain (value : Text) : Prop := '\'' ∉ value ∧ value.getLast? ≠ some '\\'

/-- A row of the table has a value in each of its columns. -/
structure TableRow (ts : TableStruct) where
  values : List Text
  full : values.length = ts.tableFields.length

def TableRow.texts {ts : TableStruct} (row : TableRow ts) : List Text := row.values.map written

/-- Where values stand of which the first starts here; `', '` is between two of them. -/
def spans (s : Nat) : List Text → List (Nat × Nat)
  | [] => []
  | text :: texts => (s, s + text.length) :: spans (s + text.length + 4) texts

/-- The start of the first value. -/
def valuesStart (ts : TableStruct) : Text := rowStart ts ++ "VALUES ('".toList

/-- The column is found where its value stands, read as what is written there, and changed alone. -/
structure Handled (ts : TableStruct) (row : TableRow ts) (index : Nat) (column text : Text) : Prop
    where
  found
    : ∀ span, (spans (valuesStart ts).length row.texts)[index]? = some span →
        findColumn ts (rowOf ts row.texts) column = .found span.1 span.2
  read : getColumn ts (rowOf ts row.texts) column = some text
  changed
    : ∀ with_ allowZero, changeColumn ts (rowOf ts row.texts) column with_ allowZero
        = some (true,
          if allowZero && text == ['0'] then rowOf ts row.texts
          else rowOf ts (row.texts.set index with_))

end WarheadCore.Tools
