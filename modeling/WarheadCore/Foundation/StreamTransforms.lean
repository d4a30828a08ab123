import Mathlib.Tactic.Common

/-! Transformations of streams: each symbol is transformed from a state, which it changes. -/

namespace Foundation.StreamTransforms

variable {κ α β : Type}

def transform (change : κ → α → β × κ) : κ → List α → List β × κ
  | key, [] => ([], key)
  | key, symbol :: rest =>
      let (first, next) := change key symbol
      let (others, last) := transform change next rest
      (first :: others, last)

variable {change : κ → α → β × κ}

@[simp] theorem length_transform (key : κ) (symbols : List α)
    : (transform change key symbols).1.length = symbols.length := by
  induction symbols generalizing key with
  | nil => rfl
  | cons symbol rest ih => exact congrArg (· + 1) (ih _)

/-- Symbols may be transformed in parts. -/
theorem transform_append (key : κ) (first later : List α)
    : transform change key (first ++ later)
      = ((transform change key first).1
          ++ (transform change (transform change key first).2 later).1,
        (transform change (transform change key first).2 later).2) := by
  induction first generalizing key with
  | nil => rfl
  | cons symbol rest ih =>
      simp only [List.cons_append, transform]
      rw [ih]

/-- What is undone symbol by symbol is undone. -/
theorem transform_undo {undo : κ → β → α × κ}
    (undone : ∀ key symbol, undo key (change key symbol).1 = (symbol, (change key symbol).2))
    (key : κ) (symbols : List α)
    : transform undo key (transform change key symbols).1
      = (symbols, (transform change key symbols).2) := by
  induction symbols generalizing key with
  | nil => rfl
  | cons symbol rest ih =>
      simp only [transform]
      rw [undone, ih]

end Foundation.StreamTransforms
