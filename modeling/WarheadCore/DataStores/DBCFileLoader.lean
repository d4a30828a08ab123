import Mathlib.Algebra.BigOperators.Group.List.Basic
import Mathlib.Algebra.GroupWithZero.Nat
import WarheadCore.Foundation.LittleEndian

/-! The loading of data files. All sizes are numbers of the file, of 32 bits, and are used together
with those of the format. An access out of bounds is an outcome of its own here.
-/

namespace WarheadCore.DataStores

open Foundation

abbrev Bytes := List (BitVec 8)

/-- The loading fails, by its result or by an assertion, or it reads or writes out of bounds. -/
inductive Stop where
  | fails
  | fault
deriving DecidableEq

-- Formats

abbrev Format := List Char

/-- The width of a field in the file. -/
def fileWidth (c : Char) : Nat := if c = 'b' ∨ c = 'X' then 1 else 4

/-- The width of a field in the table that is produced. -/
def tableWidth (c : Char) : Nat :=
  if c = 'f' ∨ c = 'i' ∨ c = 'n' then 4 else if c = 'b' then 1 else if c = 's' then 8 else 0

def isKnown (c : Char) : Bool := c ∈ ['x', 'X', 's', 'f', 'i', 'b', 'd', 'n']

def recordWidth (format : Format) : Nat := (format.map tableWidth).sum

/-- The last field to sort by, as a number of 32 bits with sign; there is none if it is negative. -/
def indexPos (format : Format) : Option Nat :=
  ((List.range format.length).filter (fun x =>
    format[x]? = some 'd' ∨ format[x]? = some 'n')).getLast?.filter (fun x => decide (x < 2 ^ 31))

def getFormatRecordSize (format : Format) : Except Stop (Nat × Option Nat) :=
  if format.all isKnown then .ok (recordWidth format % 2 ^ 32, indexPos format) else .error .fails

-- Load

structure Header where
  recordCount : Nat
  fieldCount : Nat
  recordSize : Nat
  stringSize : Nat

def wordAt (bytes : Bytes) (place : Nat) : Nat :=
  (LittleEndian.ofBytes ((bytes.drop place).take 4) : BitVec 32).toNat

/-- The header, and what follows it in the file. -/
def readHeader (file : Bytes) : Option (Header × Bytes) :=
  if 20 ≤ file.length ∧ wordAt file 0 = 0x43424457 then
    some (⟨wordAt file 4, wordAt file 8, wordAt file 12, wordAt file 16⟩, file.drop 20)
  else none

def Header.stringTable (header : Header) : Nat := header.recordSize * header.recordCount % 2 ^ 32

def Header.blockSize (header : Header) : Nat :=
  (header.stringTable + header.stringSize) % 2 ^ 32

structure DBCFileLoader where
  header : Header
  fieldsOffset : List Nat
  data : Bytes

/-- A format ends with a zero, behind which nothing may be read. -/
def charAt (format : Format) (i : Nat) : Except Stop Char :=
  if i ≤ format.length then .ok (format.getD i (Char.ofNat 0)) else .error .fault

/-- The loop over the fields after the first. -/
def fieldsOffset (format : Format) : Nat → Except Stop (List Nat)
  | 0 => .ok [0]
  | i + 1 => do
      let offsets ← fieldsOffset format i
      let c ← charAt format i
      pure (offsets ++ [(offsets.getD i 0 + fileWidth c) % 2 ^ 32])

def load (file : Bytes) (format : Format) : Except Stop DBCFileLoader :=
  match readHeader file with
  | none => .error .fails
  | some (header, rest) =>
      if header.fieldCount = 0 then .error .fault
      else do
        let offsets ← fieldsOffset format (header.fieldCount - 1)
        if header.blockSize = 0 ∨ rest.length < header.blockSize then .error .fails
        else pure ⟨header, offsets, rest.take header.blockSize⟩

-- Producing the tables

inductive Field where
  | word (value : Nat)
  | byte (value : Nat)
  /-- A pointer that is filled in later. -/
  | text

structure Tables where
  offset : Nat := 0
  fields : List Field := []
  indexTable : Nat → Option Nat := fun _ => none

namespace DBCFileLoader

variable (loader : DBCFileLoader)

def place (y x : Nat) : Nat := y * loader.header.recordSize + loader.fieldsOffset.getD x 0

/-- The loops read fields of the format only, so that the assertion on the field holds. -/
def getUInt (y x : Nat) : Except Stop Nat :=
  if loader.place y x + 4 ≤ loader.data.length then .ok (wordAt loader.data (loader.place y x))
  else .error .fault

def getUInt8 (y x : Nat) : Except Stop Nat :=
  if loader.place y x + 1 ≤ loader.data.length then
    .ok (loader.data.getD (loader.place y x) 0).toNat
  else .error .fault

/-- A field is written at the end of the table, of which this is the size. -/
def write (size width : Nat) (tables : Tables) (field : Field) : Except Stop Tables :=
  if tables.offset + width ≤ size then
    .ok { tables with
      offset := (tables.offset + width) % 2 ^ 32, fields := tables.fields ++ [field] }
  else .error .fault

def produceField (size y : Nat) (tables : Tables) (entry : Char × Nat) : Except Stop Tables :=
  if entry.1 = 'f' ∨ entry.1 = 'i' ∨ entry.1 = 'n' then do
    let value ← loader.getUInt y entry.2
    write size 4 tables (.word value)
  else if entry.1 = 'b' then do
    let value ← loader.getUInt8 y entry.2
    write size 1 tables (.byte value)
  else if entry.1 = 's' then write size 8 tables .text
  else if isKnown entry.1 then .ok tables
  else .error .fails

/-- Where the record stands in the index table. -/
def readIndex (index : Option Nat) (y : Nat) : Except Stop Nat :=
  match index with
  | some i => loader.getUInt y i
  | none => .ok y

def produceRecord (format : Format) (size records : Nat) (index : Option Nat) (tables : Tables)
    (y : Nat)
    : Except Stop Tables := do
  let id ← loader.readIndex index y
  if id < records then
    format.zipIdx.foldlM (loader.produceField size y)
      { tables with indexTable := Function.update tables.indexTable id (some tables.offset) }
  else .error .fault

def maxIndex (i : Nat) : Except Stop Nat :=
  (List.range loader.header.recordCount).foldlM
    (fun maxi y => (loader.getUInt y i).map (max maxi)) 0

/-- The size of the index table, a number of 32 bits. -/
def indexTableSize (index : Option Nat) : Except Stop Nat :=
  match index with
  | some i => (loader.maxIndex i).map (fun maxi => (maxi + 1) % 2 ^ 32)
  | none => .ok loader.header.recordCount

def dataTableSize (recordsize : Nat) : Nat := loader.header.recordCount * recordsize % 2 ^ 32

def autoProduceData (format : Format) : Except Stop Tables :=
  if format.length ≠ loader.header.fieldCount then .error .fails
  else do
    let (recordsize, index) ← getFormatRecordSize format
    let records ← loader.indexTableSize index
    (List.range loader.header.recordCount).foldlM
      (loader.produceRecord format (loader.dataTableSize recordsize) records index) {}

/-- A string is told by its place in the pool, which is a copy of the file's string block. -/
structure Strings where
  offset : Nat := 0
  texts : List Nat := []

def readText (texts : List Nat) (place : Nat) : Except Stop (List Nat) :=
  if place + 4 ≤ loader.data.length then
    if wordAt loader.data place < loader.header.stringSize then
      .ok (texts ++ [wordAt loader.data place])
    else .error .fails
  else .error .fault

def produceString (size y : Nat) (strings : Strings) (entry : Char × Nat) : Except Stop Strings :=
  if entry.1 = 's' then
    if strings.offset + 8 ≤ size then
      (loader.readText strings.texts (loader.place y entry.2)).map
        (fun texts => ⟨(strings.offset + 8) % 2 ^ 32, texts⟩)
    else .error .fault
  else .ok { strings with offset := (strings.offset + tableWidth entry.1) % 2 ^ 32 }

def autoProduceStrings (format : Format) : Except Stop Strings :=
  if format.length ≠ loader.header.fieldCount then .error .fails
  else if loader.header.stringTable + loader.header.stringSize ≤ loader.data.length then
    (List.range loader.header.recordCount).foldlM
      (fun strings y => format.zipIdx.foldlM
        (loader.produceString (loader.dataTableSize (recordWidth format % 2 ^ 32)) y) strings) {}
  else .error .fault

end DBCFileLoader

/-- Load, followed by AutoProduceData and AutoProduceStrings. -/
def produce (file : Bytes) (format : Format) : Except Stop (Tables × DBCFileLoader.Strings) := do
  let loader ← load file format
  let tables ← loader.autoProduceData format
  let strings ← loader.autoProduceStrings format
  pure (tables, strings)

-- Checked steps

/-- The step has this result where the condition holds, and is out of bounds elsewhere. -/
structure Yields {α : Type} (outcome : Except Stop α) (condition : Prop) (result : α) : Prop where
  ok : condition → outcome = .ok result
  fault : ¬condition → outcome = .error .fault

section Yields

variable {α β : Type} {outcome : Except Stop α} {condition other : Prop} {result : α}

theorem yields_ite [Decidable condition] (result : α)
    : Yields (if condition then .ok result else .error .fault) condition result :=
  ⟨fun holds => if_pos holds, fun fails => if_neg fails⟩

theorem Yields.bind {next : α → Except Stop β} {last : β} (first : Yields outcome condition result)
    (later : condition → Yields (next result) other last)
    : Yields (outcome >>= next) (condition ∧ other) last where
  ok := fun ⟨holds, holds'⟩ => by
    rw [first.ok holds]
    exact (later holds).ok holds'
  fault := fun fails => by
    by_cases holds : condition
    · rw [first.ok holds]
      exact (later holds).fault fun holds' => fails ⟨holds, holds'⟩
    · rw [first.fault holds]
      rfl

theorem Yields.congr (yields : Yields outcome condition result) (same : condition ↔ other)
    : Yields outcome other result :=
  ⟨fun holds => yields.ok (same.mpr holds), fun fails => yields.fault (mt same.mp fails)⟩

theorem Yields.map {f : α → β} (yields : Yields outcome condition result)
    : Yields (outcome.map f) condition (f result) :=
  ⟨fun holds => by rw [yields.ok holds]; rfl, fun fails => by rw [yields.fault fails]; rfl⟩

end Yields

/-- The place of a field in its record, as a number of 32 bits; the format ends with a zero. -/
def fileOffset (format : Format) (x : Nat) : Nat :=
  (((format ++ [Char.ofNat 0]).take x).map fileWidth).sum % 2 ^ 32

theorem fileOffset_succ {format : Format} {x : Nat} (le : x ≤ format.length)
    : (fileOffset format x + fileWidth (format.getD x (Char.ofNat 0))) % 2 ^ 32
      = fileOffset format (x + 1) := by
  have next : (format ++ [Char.ofNat 0])[x]? = some (format.getD x (Char.ofNat 0)) := by
    rcases Nat.lt_or_eq_of_le le with below | rfl
    · rw [List.getElem?_append_left below, List.getD_eq_getElem?_getD,
        List.getElem?_eq_getElem below]
      rfl
    · simp [List.getD_eq_getElem?_getD]
  simp only [fileOffset]
  rw [List.take_add_one, next, List.map_append, List.sum_append]
  simp

theorem yields_fieldsOffset (format : Format) (count : Nat)
    : Yields (fieldsOffset format count) (count ≤ format.length + 1)
        ((List.range (count + 1)).map (fileOffset format)) := by
  induction count with
  | zero => exact ⟨fun _ => rfl, fun beyond => absurd (Nat.zero_le _) beyond⟩
  | succ count ih =>
      have char : Yields (charAt format count) (count ≤ format.length)
          (format.getD count (Char.ofNat 0)) := yields_ite _
      constructor
      · intro le
        have le := Nat.le_of_succ_le_succ le
        rw [fieldsOffset, ih.ok (Nat.le_succ_of_le le)]
        change charAt format count >>= _ = _
        rw [char.ok le]
        have last : ((List.range (count + 1)).map (fileOffset format)).getD count 0
            = fileOffset format count := by
          simp [List.getD_eq_getElem?_getD]
        change Except.ok _ = _
        rw [last, fileOffset_succ le, List.range_succ (n := count + 1), List.map_append]
        rfl
      · intro beyond
        rw [fieldsOffset]
        by_cases le : count ≤ format.length + 1
        · rw [ih.ok le]
          change charAt format count >>= _ = _
          rw [char.fault (by omega)]
          rfl
        · rw [ih.fault le]
          rfl

/-- What is loaded where the offsets of all fields can be computed. -/
def loaderOf (format : Format) (header : Header) (rest : Bytes) : DBCFileLoader :=
  ⟨header, (List.range header.fieldCount).map (fileOffset format), rest.take header.blockSize⟩

theorem load_eq {file rest : Bytes} {format : Format} {header : Header}
    (read : readHeader file = some (header, rest))
    : load file format
      = if header.fieldCount = 0 ∨ format.length + 2 < header.fieldCount then .error .fault
        else if header.blockSize = 0 ∨ rest.length < header.blockSize then .error .fails
        else .ok (loaderOf format header rest) := by
  unfold load
  rw [read]
  dsimp only
  by_cases none_ : header.fieldCount = 0
  · rw [if_pos none_, if_pos (.inl none_)]
  · have offsets := yields_fieldsOffset format (header.fieldCount - 1)
    rw [if_neg none_]
    by_cases beyond : format.length + 2 < header.fieldCount
    · rw [if_pos (.inr beyond), offsets.fault (by omega)]
      rfl
    · rw [if_neg (not_or.mpr ⟨none_, beyond⟩), offsets.ok (by omega),
        Nat.sub_add_cancel (Nat.pos_of_ne_zero none_)]
      rfl

-- Producing a record

section Records

variable (loader : DBCFileLoader) (format : Format)

def readWidth (c : Char) : Nat :=
  if c = 'f' ∨ c = 'i' ∨ c = 'n' then 4 else if c = 'b' then 1 else 0

/-- What is read for a field is within the data. -/
def CanRead (y : Nat) (entry : Char × Nat) : Prop :=
  readWidth entry.1 = 0 ∨ loader.place y entry.2 + readWidth entry.1 ≤ loader.data.length

/-- What the record of the file has in a field, where it is produced. -/
def fieldOf (y : Nat) (entry : Char × Nat) : List Field :=
  if entry.1 = 'f' ∨ entry.1 = 'i' ∨ entry.1 = 'n' then
    [.word (wordAt loader.data (loader.place y entry.2))]
  else if entry.1 = 'b' then [.byte (loader.data.getD (loader.place y entry.2) 0).toNat]
  else if entry.1 = 's' then [.text]
  else []

def idOf (index : Option Nat) (y : Nat) : Nat :=
  match index with
  | some i => wordAt loader.data (loader.place y i)
  | none => y

variable {loader} {format} {size records y : Nat} {index : Option Nat} {tables : Tables}

theorem yields_write (width : Nat) (field : Field) (small : size < 2 ^ 32)
    : Yields (DBCFileLoader.write size width tables field) (tables.offset + width ≤ size)
        { tables with offset := tables.offset + width, fields := tables.fields ++ [field] } where
  ok := fun fits => by
    rw [DBCFileLoader.write, if_pos fits, Nat.mod_eq_of_lt (Nat.lt_of_le_of_lt fits small)]
  fault := fun beyond => if_neg beyond

theorem yields_getUInt (y x : Nat)
    : Yields (loader.getUInt y x) (loader.place y x + 4 ≤ loader.data.length)
        (wordAt loader.data (loader.place y x)) :=
  yields_ite _

theorem yields_produceField {entry : Char × Nat} (known : isKnown entry.1 = true)
    (small : size < 2 ^ 32) (fits : tables.offset ≤ size)
    : Yields (loader.produceField size y tables entry)
        (CanRead loader y entry ∧ tables.offset + tableWidth entry.1 ≤ size)
        { tables with
          offset := tables.offset + tableWidth entry.1
          fields := tables.fields ++ fieldOf loader y entry } := by
  unfold DBCFileLoader.produceField CanRead readWidth tableWidth fieldOf
  split_ifs with number byte text
  · refine ((yields_getUInt y entry.2).bind fun _ => yields_write 4 _ small).congr ?_
    simp
  · have read : Yields (loader.getUInt8 y entry.2)
        (loader.place y entry.2 + 1 ≤ loader.data.length) _ := yields_ite _
    refine (read.bind fun _ => yields_write 1 _ small).congr ?_
    simp
  · refine (yields_write 8 _ small).congr ?_
    simp
  · exact ⟨fun _ => by simp, fun fails => absurd ⟨.inl rfl, fits⟩ fails⟩

/-- The fields of a record are produced one after another, by induction on those that are left. -/
theorem yields_produceFields {entries : List (Char × Nat)}
    (known : ∀ entry ∈ entries, isKnown entry.1 = true) (small : size < 2 ^ 32)
    (fits : tables.offset ≤ size)
    : Yields (entries.foldlM (loader.produceField size y) tables)
        ((∀ entry ∈ entries, CanRead loader y entry)
          ∧ tables.offset + (entries.map fun entry => tableWidth entry.1).sum ≤ size)
        { tables with
          offset := tables.offset + (entries.map fun entry => tableWidth entry.1).sum
          fields := tables.fields ++ entries.flatMap (fieldOf loader y) } := by
  induction entries generalizing tables with
  | nil =>
      refine ⟨fun _ => ?_, fun fails => absurd ⟨by simp, by simpa using fits⟩ fails⟩
      simp only [List.map_nil, List.sum_nil, Nat.add_zero, List.flatMap_nil, List.append_nil]
      rfl
  | cons entry entries ih =>
      rw [List.foldlM_cons]
      have first := @yields_produceField loader size y tables entry
        (known entry List.mem_cons_self) small fits
      have both : Yields (loader.produceField size y tables entry >>= fun tables =>
          entries.foldlM (loader.produceField size y) tables) (_ ∧ _) _ :=
        first.bind fun condition =>
          ih (fun other member => known other (List.mem_cons_of_mem _ member)) condition.2
      refine ⟨fun holds => (both.ok ?_).trans ?_, fun fails => both.fault fun holds => fails ?_⟩
      · obtain ⟨read, room⟩ := holds
        rw [List.map_cons, List.sum_cons] at room
        dsimp only
        exact ⟨⟨read entry List.mem_cons_self, by omega⟩,
          fun other member => read other (List.mem_cons_of_mem _ member), by omega⟩
      · simp [Nat.add_assoc]
      · obtain ⟨⟨head, -⟩, rest, room⟩ := holds
        rw [List.map_cons, List.sum_cons, ← Nat.add_assoc]
        exact ⟨List.forall_mem_cons.mpr ⟨head, rest⟩, room⟩

theorem sum_tableWidth_zipIdx
    : (format.zipIdx.map fun entry => tableWidth entry.1).sum = recordWidth format := by
  have fields : format.zipIdx.map (fun entry => tableWidth entry.1)
      = (format.zipIdx.map Prod.fst).map tableWidth := by
    rw [List.map_map]
    rfl
  rw [fields, List.zipIdx_map_fst, recordWidth]

/-- The id of a record can be read and is in the index table. -/
def IndexOk (loader : DBCFileLoader) (index : Option Nat) (records y : Nat) : Prop :=
  (∀ i, index = some i → loader.place y i + 4 ≤ loader.data.length) ∧ idOf loader index y < records

theorem yields_produceRecord (known : format.all isKnown = true) (small : size < 2 ^ 32)
    (fits : tables.offset ≤ size)
    : Yields (loader.produceRecord format size records index tables y)
        (IndexOk loader index records y ∧ (∀ entry ∈ format.zipIdx, CanRead loader y entry)
          ∧ tables.offset + recordWidth format ≤ size)
        { offset := tables.offset + recordWidth format
          fields := tables.fields ++ format.zipIdx.flatMap (fieldOf loader y)
          indexTable := Function.update tables.indexTable (idOf loader index y)
            (some tables.offset) } := by
  have id_ : Yields (loader.readIndex index y)
      (∀ i, index = some i → loader.place y i + 4 ≤ loader.data.length)
      (idOf loader index y) := by
    cases index with
    | none => exact ⟨fun _ => rfl, fun fails => absurd (fun _ same => by cases same) fails⟩
    | some i => exact (yields_getUInt y i).congr (by simp)
  have each : ∀ entry ∈ format.zipIdx, isKnown entry.1 = true := fun entry member =>
    List.all_eq_true.mp known entry.1 (List.fst_mem_of_mem_zipIdx member)
  have fields := @yields_produceFields loader size y { tables with
    indexTable := Function.update tables.indexTable (idOf loader index y) (some tables.offset) }
    format.zipIdx each small fits
  rw [sum_tableWidth_zipIdx] at fields
  have write : Yields
      (if idOf loader index y < records then
        format.zipIdx.foldlM (loader.produceField size y) { tables with
          indexTable := Function.update tables.indexTable (idOf loader index y)
            (some tables.offset) }
      else .error .fault)
      (idOf loader index y < records ∧ (∀ entry ∈ format.zipIdx, CanRead loader y entry)
        ∧ tables.offset + recordWidth format ≤ size) _ :=
    ⟨fun ⟨inside, rest⟩ => by rw [if_pos inside]; exact fields.ok rest, fun fails => by
      split
      · rename_i inside
        exact fields.fault fun rest => fails ⟨inside, rest⟩
      · rfl⟩
  unfold DBCFileLoader.produceRecord
  exact (id_.bind fun _ => write).congr and_assoc.symm

/-- The last of the first records with this id. -/
def lastRecord (loader : DBCFileLoader) (index : Option Nat) (id : Nat) : Nat → Option Nat
  | 0 => none
  | count + 1 =>
      if id = idOf loader index count then some count else lastRecord loader index id count

/-- The tables of the first records. -/
def tablesOf (loader : DBCFileLoader) (format : Format) (index : Option Nat) (count : Nat)
    : Tables where
  offset := count * recordWidth format
  fields := (List.range count).flatMap fun y => format.zipIdx.flatMap (fieldOf loader y)
  indexTable := fun id => (lastRecord loader index id count).map (· * recordWidth format)

theorem tablesOf_succ (loader : DBCFileLoader) (format : Format) (index : Option Nat) (count : Nat)
    : tablesOf loader format index (count + 1)
      = { offset := (tablesOf loader format index count).offset + recordWidth format
          fields := (tablesOf loader format index count).fields
            ++ format.zipIdx.flatMap (fieldOf loader count)
          indexTable := Function.update (tablesOf loader format index count).indexTable
            (idOf loader index count) (some (tablesOf loader format index count).offset) } := by
  have index_ : (tablesOf loader format index (count + 1)).indexTable
      = Function.update (tablesOf loader format index count).indexTable (idOf loader index count)
          (some (tablesOf loader format index count).offset) := by
    funext id
    rw [Function.update_apply]
    simp only [tablesOf, lastRecord]
    split <;> rfl
  rw [← index_]
  simp [tablesOf, List.range_succ, Nat.succ_mul]

/-- The records are produced one after another, by induction on their number. -/
theorem yields_produceRecords (known : format.all isKnown = true) (small : size < 2 ^ 32)
    (count : Nat)
    : Yields ((List.range count).foldlM (loader.produceRecord format size records index) {})
        ((∀ y < count, IndexOk loader index records y
            ∧ ∀ entry ∈ format.zipIdx, CanRead loader y entry)
          ∧ count * recordWidth format ≤ size)
        (tablesOf loader format index count) := by
  induction count with
  | zero =>
      refine ⟨fun _ => ?_, fun fails => absurd ⟨fun _ below => absurd below (Nat.not_lt_zero _),
        by simp⟩ fails⟩
      simp [tablesOf, lastRecord]
      rfl
  | succ count ih =>
      rw [List.range_succ, List.foldlM_append, tablesOf_succ]
      simp only [List.foldlM_cons, List.foldlM_nil, bind_pure]
      refine (ih.bind fun condition => yields_produceRecord known small condition.2).congr ?_
      have width : (tablesOf loader format index count).offset + recordWidth format
          = (count + 1) * recordWidth format := (Nat.succ_mul _ _).symm
      rw [width, Nat.forall_lt_succ_right]
      have wider : count * recordWidth format ≤ (count + 1) * recordWidth format :=
        Nat.mul_le_mul_right _ (Nat.le_succ count)
      constructor
      · rintro ⟨⟨earlier, -⟩, own, read, room⟩
        exact ⟨⟨earlier, own, read⟩, room⟩
      · rintro ⟨⟨earlier, own, read⟩, room⟩
        exact ⟨⟨earlier, Nat.le_trans wider room⟩, own, read, room⟩

-- The index table

/-- The largest id of the first records. -/
def maxId (loader : DBCFileLoader) (i : Nat) : Nat → Nat
  | 0 => 0
  | count + 1 => max (maxId loader i count) (idOf loader (some i) count)

theorem yields_maxIndex (i count : Nat)
    : Yields ((List.range count).foldlM (fun maxi y => (loader.getUInt y i).map (max maxi)) 0)
        (∀ y < count, loader.place y i + 4 ≤ loader.data.length) (maxId loader i count) := by
  induction count with
  | zero => exact ⟨fun _ => rfl, fun fails => absurd (fun _ below => absurd below
      (Nat.not_lt_zero _)) fails⟩
  | succ count ih =>
      rw [List.range_succ, List.foldlM_append]
      simp only [List.foldlM_cons, List.foldlM_nil, bind_pure]
      exact (ih.bind fun _ => (yields_getUInt count i).map).congr
        Nat.forall_lt_succ_right.symm

theorem maxId_lt_iff {i count bound : Nat} (positive : 0 < bound)
    : maxId loader i count < bound ↔ ∀ y < count, idOf loader (some i) y < bound := by
  induction count with
  | zero => simp [maxId, positive]
  | succ count ih => rw [maxId, Nat.max_lt, ih, Nat.forall_lt_succ_right]

theorem idOf_lt (i y : Nat) : idOf loader (some i) y < 2 ^ 32 := BitVec.isLt _

/-- The index table has the ids of all records unless one is the largest number. -/
theorem forall_id_lt_iff (i count : Nat)
    : (∀ y < count, idOf loader (some i) y < (maxId loader i count + 1) % 2 ^ 32)
      ↔ ∀ y < count, idOf loader (some i) y ≠ 0xFFFFFFFF := by
  have small : maxId loader i count < 2 ^ 32 :=
    (maxId_lt_iff (by decide)).mpr fun y _ => idOf_lt i y
  have bounds := @maxId_lt_iff loader i count (maxId loader i count + 1) (Nat.succ_pos _)
  constructor
  · intro inside y below last
    have := inside y below
    have := bounds.mp (Nat.lt_succ_self _) y below
    omega
  · intro others y below
    have wrapless : maxId loader i count < 0xFFFFFFFF :=
      (maxId_lt_iff (by decide)).mpr fun y below => by
        have := @idOf_lt loader i y
        have := others y below
        omega
    rw [Nat.mod_eq_of_lt (by omega)]
    exact bounds.mp (Nat.lt_succ_self _) y below

/-- The reads of all records are within the data, with ids that the index table can have. -/
structure RecordsFit (loader : DBCFileLoader) (format : Format) : Prop where
  fields
    : ∀ y < loader.header.recordCount, ∀ entry ∈ format.zipIdx, CanRead loader y entry
  ids
    : ∀ i, indexPos format = some i → ∀ y < loader.header.recordCount,
        loader.place y i + 4 ≤ loader.data.length
        ∧ idOf loader (some i) y ≠ 0xFFFFFFFF
  table : loader.header.recordCount * recordWidth format < 2 ^ 32

theorem dataTableSize_lt (width : Nat) : loader.dataTableSize width < 2 ^ 32 :=
  Nat.mod_lt _ (by decide)

theorem le_dataTableSize_iff
    : loader.header.recordCount * recordWidth format
        ≤ loader.dataTableSize (recordWidth format % 2 ^ 32)
      ↔ loader.header.recordCount * recordWidth format < 2 ^ 32 := by
  have same : loader.dataTableSize (recordWidth format % 2 ^ 32)
      = loader.header.recordCount * recordWidth format % 2 ^ 32 := Nat.mul_mod_mod _ _ _
  rw [same]
  constructor
  · exact fun le => Nat.lt_of_le_of_lt le (Nat.mod_lt _ (by decide))
  · exact fun below => Nat.le_of_eq (Nat.mod_eq_of_lt below).symm

theorem yields_autoProduceData (fields : format.length = loader.header.fieldCount)
    (known : format.all isKnown = true)
    : Yields (loader.autoProduceData format) (RecordsFit loader format)
        (tablesOf loader format (indexPos format) loader.header.recordCount) := by
  have small := @dataTableSize_lt loader (recordWidth format % 2 ^ 32)
  have size : getFormatRecordSize format = .ok (recordWidth format % 2 ^ 32, indexPos format) :=
    if_pos known
  unfold DBCFileLoader.autoProduceData
  rw [if_neg (not_not.mpr fields), size]
  change Yields (loader.indexTableSize (indexPos format) >>= fun records => _) _ _
  cases index : indexPos format with
  | none =>
      have records : Yields (loader.indexTableSize none) True loader.header.recordCount :=
        ⟨fun _ => rfl, fun fails => absurd trivial fails⟩
      refine (records.bind fun _ => yields_produceRecords known small _).congr ?_
      rw [le_dataTableSize_iff, true_and]
      constructor
      · rintro ⟨all, table⟩
        refine ⟨fun y below => (all y below).2, fun i some_ => ?_, table⟩
        rw [index] at some_
        cases some_
      · intro fit
        refine ⟨fun y below => ⟨⟨fun i some_ => ?_, below⟩, fit.fields y below⟩, fit.table⟩
        cases some_
  | some i =>
      have records : Yields (loader.indexTableSize (some i)) _ _ :=
        (yields_maxIndex i loader.header.recordCount).map
      refine (records.bind fun _ => yields_produceRecords known small _).congr ?_
      have inside := @forall_id_lt_iff loader i loader.header.recordCount
      rw [le_dataTableSize_iff]
      constructor
      · rintro ⟨read, all, table⟩
        refine ⟨fun y below => (all y below).2, fun j same y below => ?_, table⟩
        obtain rfl := Option.some.inj (index.symm.trans same)
        exact ⟨read y below, inside.mp (fun y below => (all y below).1.2) y below⟩
      · intro fit
        have ids := fit.ids i index
        have within := inside.mpr fun y below => (ids y below).2
        refine ⟨fun y below => (ids y below).1, fun y below => ⟨⟨fun j same => ?_, within y below⟩,
          fit.fields y below⟩, fit.table⟩
        obtain rfl := Option.some.inj same
        exact (ids y below).1

-- Strings

/-- The places of the strings' offsets, record by record. -/
def textPlaces (loader : DBCFileLoader) (y : Nat) (entries : List (Char × Nat)) : List Nat :=
  (entries.filter fun entry => entry.1 = 's').map fun entry => loader.place y entry.2

/-- The offsets are within the data, up to the first that is beyond the string block. -/
def TextsFit (loader : DBCFileLoader) : List Nat → Prop
  | [] => True
  | place :: places =>
      place + 4 ≤ loader.data.length
      ∧ (wordAt loader.data place < loader.header.stringSize → TextsFit loader places)

theorem foldlM_readText (places : List Nat) (texts : List Nat)
    : (TextsFit loader places ↔ places.foldlM loader.readText texts ≠ .error .fault)
      ∧ ∀ result, places.foldlM loader.readText texts = .ok result →
        result = texts ++ places.map (wordAt loader.data) := by
  induction places generalizing texts with
  | nil =>
      refine ⟨iff_of_true trivial (fun fault => by cases fault), fun result same => ?_⟩
      obtain rfl := Except.ok.inj same
      simp
  | cons place places ih =>
      rw [List.foldlM_cons, TextsFit, DBCFileLoader.readText]
      split
      · rename_i inside
        split
        · rename_i within
          obtain ⟨fit, all⟩ := ih (texts ++ [wordAt loader.data place])
          refine ⟨⟨fun all => fit.mp (all.2 within), fun fine => ⟨inside, fun _ => fit.mpr fine⟩⟩,
            fun result same => ?_⟩
          rw [all result same]
          simp
        · rename_i beyond
          refine ⟨iff_of_true ⟨inside, fun within => absurd within beyond⟩ ?_, ?_⟩
          · intro fault
            cases fault
          · intro _ same
            cases same
      · rename_i outside
        refine ⟨iff_of_false (fun fit => outside fit.1) (not_not.mpr rfl), ?_⟩
        intro _ same
        cases same

theorem foldlM_produceString {entries : List (Char × Nat)} {offset : Nat} (texts : List Nat)
    (small : size < 2 ^ 32)
    (fits : offset + (entries.map fun entry => tableWidth entry.1).sum ≤ size)
    : entries.foldlM (loader.produceString size y) ⟨offset, texts⟩
      = ((textPlaces loader y entries).foldlM loader.readText texts).map
          (⟨offset + (entries.map fun entry => tableWidth entry.1).sum, ·⟩) := by
  induction entries generalizing offset texts with
  | nil => rfl
  | cons entry entries ih =>
      rw [List.map_cons, List.sum_cons, ← Nat.add_assoc] at fits ⊢
      have wrapless : (offset + tableWidth entry.1) % 2 ^ 32 = offset + tableWidth entry.1 :=
        Nat.mod_eq_of_lt (by omega)
      rw [List.foldlM_cons]
      unfold DBCFileLoader.produceString
      split
      · rename_i text
        have width : tableWidth entry.1 = 8 := by rw [text]; rfl
        have places : textPlaces loader y (entry :: entries)
            = loader.place y entry.2 :: textPlaces loader y entries := by
          simp [textPlaces, text]
        rw [width] at fits wrapless ⊢
        have room : offset + 8 ≤ size := by omega
        rw [if_pos room, places, List.foldlM_cons]
        cases loader.readText texts (loader.place y entry.2) with
        | error stop => rfl
        | ok texts =>
            change entries.foldlM (loader.produceString size y) ⟨(offset + 8) % 2 ^ 32, texts⟩ = _
            rw [wrapless]
            exact ih texts fits
      · rename_i other
        have places : textPlaces loader y (entry :: entries) = textPlaces loader y entries := by
          simp [textPlaces, other]
        dsimp only
        rw [wrapless, places]
        exact ih texts fits

def allTextPlaces (loader : DBCFileLoader) (format : Format) (count : Nat) : List Nat :=
  (List.range count).flatMap fun y => textPlaces loader y format.zipIdx

theorem foldlM_produceStrings (small : size < 2 ^ 32) (count : Nat)
    (fits : count * recordWidth format ≤ size)
    : (List.range count).foldlM
        (fun strings y => format.zipIdx.foldlM (loader.produceString size y) strings) {}
      = ((allTextPlaces loader format count).foldlM loader.readText []).map
          (⟨count * recordWidth format, ·⟩) := by
  induction count with
  | zero =>
      rw [Nat.zero_mul]
      rfl
  | succ count ih =>
      rw [Nat.succ_mul] at fits ⊢
      have places : allTextPlaces loader format (count + 1)
          = allTextPlaces loader format count ++ textPlaces loader count format.zipIdx := by
        simp [allTextPlaces, List.range_succ]
      rw [List.range_succ, List.foldlM_append, ih (by omega), places, List.foldlM_append]
      cases (allTextPlaces loader format count).foldlM loader.readText [] with
      | error stop => rfl
      | ok texts =>
          have row := @foldlM_produceString loader size count format.zipIdx
            (count * recordWidth format) texts small (by rw [sum_tableWidth_zipIdx]; exact fits)
          rw [sum_tableWidth_zipIdx] at row
          change [count].foldlM (fun strings y =>
            format.zipIdx.foldlM (loader.produceString size y) strings) ⟨_, texts⟩ = _
          simp only [List.foldlM_cons, List.foldlM_nil, bind_pure]
          exact row

end Records

-- The law of the loading

/-- The tables hold the fields of the file's records in their order, and each id leads to the last
record that carries it.
-/
structure Faithful (loader : DBCFileLoader) (format : Format) (tables : Tables)
    (strings : DBCFileLoader.Strings) : Prop where
  fields
    : tables.fields = (List.range loader.header.recordCount).flatMap fun y =>
        format.zipIdx.flatMap (fieldOf loader y)
  texts
    : strings.texts = (allTextPlaces loader format loader.header.recordCount).map
        (wordAt loader.data)
  carried
    : ∀ id place, tables.indexTable id = some place → ∃ y < loader.header.recordCount,
        idOf loader (indexPos format) y = id ∧ place = y * recordWidth format
        ∧ ∀ later < loader.header.recordCount, y < later →
          idOf loader (indexPos format) later ≠ id
  others
    : ∀ id, tables.indexTable id = none → ∀ y < loader.header.recordCount,
        idOf loader (indexPos format) y ≠ id

/-- The loading fails, or its tables are those of the file. -/
def Safe (file : Bytes) (format : Format) : Prop :=
  produce file format = .error .fails
  ∨ ∃ header rest tables strings, readHeader file = some (header, rest)
    ∧ produce file format = .ok (tables, strings)
    ∧ Faithful (loaderOf format header rest) format tables strings

/-- What has to fit together where the loading does not fail before. -/
structure Consistent (loader : DBCFileLoader) (format : Format) : Prop where
  records : RecordsFit loader format
  block : loader.header.stringTable + loader.header.stringSize < 2 ^ 32
  texts : TextsFit loader (allTextPlaces loader format loader.header.recordCount)

theorem lastRecord_spec (loader : DBCFileLoader) (index : Option Nat) (id count : Nat)
    : (∀ y, lastRecord loader index id count = some y →
        y < count ∧ idOf loader index y = id
          ∧ ∀ later < count, y < later → idOf loader index later ≠ id)
      ∧ (lastRecord loader index id count = none → ∀ y < count, idOf loader index y ≠ id) := by
  induction count with
  | zero => exact ⟨fun y same => (by cases same), fun _ y below => absurd below (Nat.not_lt_zero _)⟩
  | succ count ih =>
      rw [lastRecord]
      split
      · rename_i carries
        refine ⟨fun y same => ?_, fun same => by cases same⟩
        obtain rfl := Option.some.inj same
        exact ⟨Nat.lt_succ_self _, carries.symm, fun later below above => by omega⟩
      · rename_i other
        refine ⟨fun y same => ?_, fun same y below => ?_⟩
        · obtain ⟨below, carries, last⟩ := ih.1 y same
          refine ⟨by omega, carries, fun later below above => ?_⟩
          rcases Nat.lt_succ_iff_lt_or_eq.mp below with below | rfl
          · exact last later below above
          · exact Ne.symm other
        · rcases Nat.lt_succ_iff_lt_or_eq.mp below with below | rfl
          · exact ih.2 same y below
          · exact Ne.symm other

theorem faithful_tablesOf (loader : DBCFileLoader) (format : Format)
    : Faithful loader format
        (tablesOf loader format (indexPos format) loader.header.recordCount)
        ⟨loader.header.recordCount * recordWidth format,
          (allTextPlaces loader format loader.header.recordCount).map (wordAt loader.data)⟩ where
  fields := rfl
  texts := rfl
  carried := fun id place found => by
    obtain ⟨y, last, rfl⟩ := Option.map_eq_some_iff.mp found
    obtain ⟨below, carries, others⟩ := (lastRecord_spec loader _ id _).1 y last
    exact ⟨y, below, carries, rfl, others⟩
  others := fun id found =>
    (lastRecord_spec loader _ id _).2 (Option.map_eq_none_iff.mp found)

/-- What the two functions come to for a file that has been loaded. -/
theorem produced (loader : DBCFileLoader) (format : Format)
    (length : loader.data.length = loader.header.blockSize)
    (fields : format.length = loader.header.fieldCount) (known : format.all isKnown = true)
    : let outcome := loader.autoProduceData format >>= fun tables =>
        loader.autoProduceStrings format >>= fun strings => pure (tables, strings)
      (Consistent loader format → outcome = .error .fails
        ∨ ∃ tables strings, outcome = .ok (tables, strings)
          ∧ Faithful loader format tables strings)
      ∧ (¬Consistent loader format → outcome = .error .fault) := by
  intro outcome
  have data := yields_autoProduceData fields known
  by_cases fit : RecordsFit loader format
  · let tables := tablesOf loader format (indexPos format) loader.header.recordCount
    have first : outcome
        = loader.autoProduceStrings format >>= fun strings => pure (tables, strings) := by
      dsimp only [outcome]
      rw [data.ok fit]
      rfl
    have room := le_dataTableSize_iff.mpr fit.table
    have walk := @foldlM_produceStrings loader format _ (dataTableSize_lt _) _ room
    obtain ⟨fits, texts⟩ :=
      @foldlM_readText loader (allTextPlaces loader format loader.header.recordCount) []
    by_cases block : loader.header.stringTable + loader.header.stringSize < 2 ^ 32
    · have inside : loader.header.stringTable + loader.header.stringSize ≤ loader.data.length :=
        Nat.le_of_eq (by rw [length, Header.blockSize, Nat.mod_eq_of_lt block])
      rw [DBCFileLoader.autoProduceStrings, if_neg (not_not.mpr fields), if_pos inside,
        walk] at first
      cases read : (allTextPlaces loader format loader.header.recordCount).foldlM
          loader.readText [] with
      | error stop =>
          rw [read] at first
          cases stop with
          | fails =>
              refine ⟨fun _ => .inl first, fun broken => absurd ⟨fit, block, ?_⟩ broken⟩
              exact fits.mpr (by rw [read]; intro same; cases same)
          | fault =>
              exact ⟨fun consistent => absurd read (fits.mp consistent.texts), fun _ => first⟩
      | ok result =>
          rw [read] at first
          obtain rfl := texts result read
          refine ⟨fun _ => .inr ⟨_, _, first, faithful_tablesOf loader format⟩,
            fun broken => absurd ⟨fit, block, ?_⟩ broken⟩
          exact fits.mpr (by rw [read]; intro same; cases same)
    · have outside
          : ¬loader.header.stringTable + loader.header.stringSize ≤ loader.data.length := by
        intro inside
        rw [length] at inside
        exact block (Nat.lt_of_le_of_lt inside (Nat.mod_lt _ (by decide)))
      rw [DBCFileLoader.autoProduceStrings, if_neg (not_not.mpr fields), if_neg outside] at first
      exact ⟨fun consistent => absurd consistent.block block, fun _ => first⟩
  · refine ⟨fun consistent => absurd consistent.records fit, fun _ => ?_⟩
    dsimp only [outcome]
    rw [data.fault fit]
    rfl

theorem not_safe_of_fault {file : Bytes} {format : Format}
    (fault : produce file format = .error .fault)
    : ¬Safe file format := by
  rintro (failed | ⟨_, _, _, _, _, done, _⟩)
  · rw [fault] at failed
    cases failed
  · rw [fault] at done
    cases done

/-- The loading of a file with a header is safe if and only if there are fields, not more than two
beyond the format, and, where the loading does not fail before, everything fits together.
-/
theorem safe_iff (file : Bytes) (format : Format)
    : Safe file format
      ↔ ∀ header rest, readHeader file = some (header, rest) →
        header.fieldCount ≠ 0 ∧ header.fieldCount ≤ format.length + 2
        ∧ (header.blockSize ≠ 0 → header.blockSize ≤ rest.length →
          format.length = header.fieldCount → format.all isKnown = true →
          Consistent (loaderOf format header rest) format) := by
  cases read : readHeader file with
  | none =>
      refine iff_of_true (.inl ?_) fun _ _ same => by cases same
      simp [produce, load, read]
      rfl
  | some pair =>
  obtain ⟨header, rest⟩ := pair
  have loaded := @load_eq _ _ format _ read
  have only : ∀ {law : Header → Bytes → Prop},
      (∀ header' rest', some (header, rest) = some (header', rest') → law header' rest')
        ↔ law header rest := by
    intro law
    refine ⟨fun all => all _ _ rfl, fun holds _ _ same => ?_⟩
    obtain ⟨rfl, rfl⟩ := Prod.mk.inj (Option.some.inj same)
    exact holds
  rw [only]
  by_cases bad : header.fieldCount = 0 ∨ format.length + 2 < header.fieldCount
  · rw [if_pos bad] at loaded
    refine iff_of_false (not_safe_of_fault (by rw [produce, loaded]; rfl)) ?_
    rintro ⟨some_, few, -⟩
    rcases bad with none_ | many
    · exact some_ none_
    · omega
  rw [if_neg bad] at loaded
  have counted : header.fieldCount ≠ 0 ∧ header.fieldCount ≤ format.length + 2 := by
    obtain ⟨some_, few⟩ := not_or.mp bad
    exact ⟨some_, by omega⟩
  by_cases short : header.blockSize = 0 ∨ rest.length < header.blockSize
  · rw [if_pos short] at loaded
    refine iff_of_true (.inl (by rw [produce, loaded]; rfl)) ⟨counted.1, counted.2, ?_⟩
    intro some_ enough
    rcases short with none_ | short
    · exact absurd none_ some_
    · omega
  rw [if_neg short] at loaded
  obtain ⟨some_, enough⟩ := not_or.mp short
  have enough := Nat.le_of_not_lt enough
  have rest_ : produce file format = (loaderOf format header rest).autoProduceData format
      >>= fun tables => (loaderOf format header rest).autoProduceStrings format
        >>= fun strings => pure (tables, strings) := by
    rw [produce, loaded]
    rfl
  by_cases fields : format.length = header.fieldCount
  · by_cases known : format.all isKnown = true
    · have outcome := produced (loaderOf format header rest) format
        (List.length_take_of_le enough) fields known
      dsimp only at outcome
      rw [← rest_] at outcome
      by_cases consistent : Consistent (loaderOf format header rest) format
      · refine iff_of_true ?_ ⟨counted.1, counted.2, fun _ _ _ _ => consistent⟩
        rcases outcome.1 consistent with failed | ⟨tables, strings, done, faithful⟩
        · exact .inl failed
        · exact .inr ⟨header, rest, tables, strings, read, done, faithful⟩
      · refine iff_of_false (not_safe_of_fault (outcome.2 consistent)) fun all => ?_
        exact consistent (all.2.2 some_ enough fields known)
    · refine iff_of_true (.inl ?_) ⟨counted.1, counted.2, fun _ _ _ all => absurd all known⟩
      have same : ¬format.length ≠ (loaderOf format header rest).header.fieldCount :=
        not_not.mpr fields
      rw [rest_, DBCFileLoader.autoProduceData, if_neg same, getFormatRecordSize, if_neg known]
      rfl
  · refine iff_of_true (.inl ?_) ⟨counted.1, counted.2, fun _ _ same => absurd same fields⟩
    have other : format.length ≠ (loaderOf format header rest).header.fieldCount := fields
    rw [rest_, DBCFileLoader.autoProduceData, if_pos other]
    rfl

/-- A header with one record of no bytes, where the format has a field of four. -/
theorem record_shorter_than_format : ∃ file, ∃ format : Format, ¬Safe file format := by
  refine ⟨[0x57, 0x44, 0x42, 0x43, 1, 0, 0, 0, 1, 0, 0, 0, 0, 0, 0, 0, 1, 0, 0, 0, 0], ['n'], ?_⟩
  exact not_safe_of_fault rfl

end WarheadCore.DataStores
