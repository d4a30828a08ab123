import Mathlib.Logic.Basic

/-! Functions that read from a text and can reject it. A rejection is a result; a read behind the end
of the text has none.
-/

namespace Foundation

variable {α β : Type}

/-- A value that is read; there is none behind the end. -/
def readOf (value : Option α) : OptionT Option α := OptionT.mk (value.map some)

/-- A value that is searched for; without one the text is rejected. -/
def searchOf (value : Option α) : OptionT Option α := OptionT.mk (some value)

/-- Nothing is read behind the end, and the results are the values that fit. -/
def Reads (reading : OptionT Option α) (fits : α → Prop) : Prop :=
  ∃ result : Option α, reading.run = some result ∧ ∀ value, result = some value ↔ fits value

variable {reading : OptionT Option α} {fits : α → Prop} {next : α → OptionT Option β}
  {fitsNext : β → Prop}

theorem Reads.congr {fits' : α → Prop} (reads : Reads reading fits)
    (same : ∀ value, fits value ↔ fits' value)
    : Reads reading fits' := by
  obtain ⟨result, run, shape⟩ := reads
  exact ⟨result, run, fun value => (shape value).trans (same value)⟩

/-- There is at most one value that fits. -/
theorem Reads.unique (reads : Reads reading fits) {value other : α} (fit : fits value)
    (fit' : fits other)
    : value = other := by
  obtain ⟨result, _, shape⟩ := reads
  have first := (shape value).mpr fit
  have second := (shape other).mpr fit'
  exact Option.some.inj (first.symm.trans second)

theorem reads_pure {value : α} (only : ∀ other, fits other ↔ other = value)
    : Reads (pure value) fits :=
  ⟨some value, rfl, fun other => by rw [Option.some.injEq, only, eq_comm]⟩

/-- One function after another: where the first one has no value, nothing fits. -/
theorem Reads.bind (reads : Reads reading fits)
    (later : ∀ value, fits value → Reads (next value) fitsNext)
    (rejected : (∀ value, ¬fits value) → ∀ result, ¬fitsNext result)
    : Reads (reading >>= next) fitsNext := by
  obtain ⟨result, run, shape⟩ := reads
  cases result with
  | none =>
      have none_ : ∀ value, ¬fits value := by
        intro value fit
        cases (shape value).mpr fit
      refine ⟨none, ?_, fun value => iff_of_false (by simp) (rejected none_ value)⟩
      rw [OptionT.run_bind, run]
      rfl
  | some first =>
      obtain ⟨last, run', shape'⟩ := later first ((shape first).mp rfl)
      refine ⟨last, ?_, shape'⟩
      rw [OptionT.run_bind, run]
      exact run'

theorem reads_guard_bind {condition : Prop} [Decidable condition] {next : Unit → OptionT Option β}
    (later : condition → Reads (next ()) fitsNext)
    (rejected : ¬condition → ∀ result, ¬fitsNext result)
    : Reads (guard condition >>= next) fitsNext := by
  by_cases holds : condition
  · obtain ⟨last, run, shape⟩ := later holds
    have passes : (guard condition : OptionT Option Unit) = pure () := if_pos holds
    refine ⟨last, ?_, shape⟩
    rw [passes]
    exact run
  · have rejects : (guard condition : OptionT Option Unit) = failure := if_neg holds
    refine ⟨none, ?_, fun value => iff_of_false (by simp) (rejected holds value)⟩
    rw [rejects]
    rfl

theorem reads_readOf_bind {value : Option α} {there : α} (found : value = some there)
    (later : Reads (next there) fitsNext)
    : Reads (readOf value >>= next) fitsNext := by
  subst found
  exact later

theorem reads_searchOf_bind {value : Option α}
    (later : ∀ there, value = some there → Reads (next there) fitsNext)
    (rejected : value = none → ∀ result, ¬fitsNext result)
    : Reads (searchOf value >>= next) fitsNext := by
  cases value with
  | none => exact ⟨none, rfl, fun result => iff_of_false (by simp) (rejected rfl result)⟩
  | some there => exact later there rfl

end Foundation
