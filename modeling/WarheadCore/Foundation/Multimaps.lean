import Mathlib.Data.List.Nodup
import Mathlib.Order.Lattice

/-! Ordered multimaps as lists that are sorted by a key: a new record goes behind all records whose
key is not larger.
-/

namespace Foundation.Multimaps

variable {α κ : Type*} [LinearOrder κ] (key : α → κ)

/-- Insert a record behind the last one whose key is at most its own. -/
def insert (record : α) : List α → List α
  | [] => [record]
  | head :: rest => if key head ≤ key record then head :: insert record rest else record :: head :: rest

variable {key} {record : α}

theorem perm_insert (records : List α) : (insert key record records).Perm (record :: records) := by
  induction records with
  | nil => exact .refl _
  | cons head rest ih =>
      unfold insert
      split
      · exact (ih.cons head).trans (.swap record head rest)
      · exact .refl _

theorem mem_insert {records : List α} {other : α}
    : other ∈ insert key record records ↔ other = record ∨ other ∈ records := by
  rw [(perm_insert records).mem_iff, List.mem_cons]

/-- Inserting keeps the records sorted. -/
theorem pairwise_insert {records : List α}
    (sorted : records.Pairwise (fun first later => key first ≤ key later))
    : (insert key record records).Pairwise (fun first later => key first ≤ key later) := by
  induction records with
  | nil => exact List.pairwise_singleton _ _
  | cons head rest ih =>
      rw [List.pairwise_cons] at sorted
      unfold insert
      split
      · rename_i le
        refine List.pairwise_cons.mpr ⟨fun other member => ?_, ih sorted.2⟩
        rcases mem_insert.mp member with rfl | old
        · exact le
        · exact sorted.1 other old
      · rename_i larger
        refine List.pairwise_cons.mpr ⟨fun other member => ?_, List.pairwise_cons.mpr sorted⟩
        rcases List.mem_cons.mp member with rfl | old
        · exact le_of_lt (not_le.mp larger)
        · exact le_trans (le_of_lt (not_le.mp larger)) (sorted.1 other old)

/-- Inserting several records, one after the other, adds them. -/
theorem perm_foldl_insert (added records : List α)
    : (added.foldl (fun all record => insert key record all) records).Perm (added ++ records) := by
  induction added generalizing records with
  | nil => exact .refl _
  | cons head rest ih =>
      rw [List.foldl_cons]
      exact (ih _).trans (((perm_insert records).append_left rest).trans List.perm_middle)

theorem pairwise_foldl_insert (added : List α) {records : List α}
    (sorted : records.Pairwise (fun first later => key first ≤ key later))
    : (added.foldl (fun all record => insert key record all) records).Pairwise
        (fun first later => key first ≤ key later) := by
  induction added generalizing records with
  | nil => exact sorted
  | cons head rest ih => exact ih (pairwise_insert sorted)

/-- Records whose keys are not larger stay in front. -/
theorem insert_append_of_le {front : List α} (le : ∀ other ∈ front, key other ≤ key record)
    (back : List α)
    : insert key record (front ++ back) = front ++ insert key record back := by
  induction front with
  | nil => rfl
  | cons head rest ih =>
      rw [List.cons_append, insert, if_pos (le head List.mem_cons_self),
        ih (fun other member => le other (List.mem_cons_of_mem _ member)), List.cons_append]

/-- Sorted records are inserted in their order. -/
theorem foldl_insert_of_pairwise {added records : List α}
    (sorted : (records ++ added).Pairwise (fun first later => key first ≤ key later))
    : added.foldl (fun all record => insert key record all) records = records ++ added := by
  induction added generalizing records with
  | nil => exact (List.append_nil records).symm
  | cons head rest ih =>
      have before := (List.pairwise_append.mp sorted).2.2
      have last : insert key head records = records ++ [head] := by
        have le : ∀ other ∈ records, key other ≤ key head :=
          fun other member => before other member head List.mem_cons_self
        have whole := insert_append_of_le le []
        rwa [List.append_nil, insert] at whole
      rw [List.append_cons] at sorted
      rw [List.foldl_cons, last, ih sorted, ← List.append_cons]

/-- A map that keeps the comparisons with the new record commutes with its insertion. -/
theorem map_insert {β : Type*} {key' : β → κ} {f : α → β} {records : List α}
    (same : ∀ other ∈ records, key' (f other) ≤ key' (f record) ↔ key other ≤ key record)
    : (insert key record records).map f = insert key' (f record) (records.map f) := by
  induction records with
  | nil => rfl
  | cons head rest ih =>
      have own := same head List.mem_cons_self
      rw [List.map_cons, insert, insert]
      by_cases le : key head ≤ key record
      · rw [if_pos le, if_pos (own.mpr le), List.map_cons,
          ih (fun other member => same other (List.mem_cons_of_mem _ member))]
      · rw [if_neg le, if_neg (mt own.mp le), List.map_cons, List.map_cons]

/-- A cut of the records in two stays one: the new record goes to the first part, or behind the
first record of the second part.
-/
theorem insert_append (front back : List α)
    : (∃ longer, insert key record (front ++ back) = longer ++ back
        ∧ longer.Perm (record :: front))
      ∨ ∃ head rest, back = head :: rest
          ∧ insert key record (front ++ back) = front ++ head :: insert key record rest := by
  induction front with
  | nil =>
      cases back with
      | nil => exact .inl ⟨[record], rfl, .refl _⟩
      | cons head rest =>
          rw [List.nil_append, insert]
          split
          · exact .inr ⟨head, rest, rfl, rfl⟩
          · exact .inl ⟨[record], rfl, .refl _⟩
  | cons first rest ih =>
      rw [List.cons_append, insert]
      split
      · rcases ih with ⟨longer, same, perm⟩ | ⟨head, later, cut, same⟩
        · refine .inl ⟨first :: longer, by rw [same, List.cons_append], ?_⟩
          exact (perm.cons first).trans (.swap record first rest)
        · exact .inr ⟨head, later, cut, by rw [same, List.cons_append]⟩
      · exact .inl ⟨record :: first :: rest, rfl, .refl _⟩

end Foundation.Multimaps
