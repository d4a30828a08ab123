import Mathlib.Data.List.Rotate

/-! Taking turns in a list: the list from behind one of its elements around to that element. -/

namespace Foundation

section

variable {α : Type*} [DecidableEq α]

/-- The list from behind an element around to it; the whole list for anything else. -/
def rotateAfter (current : α) (list : List α) : List α :=
  if current ∈ list then list.rotate (list.idxOf current + 1) else list

theorem rotateAfter_of_notMem {current : α} {list : List α} (absent : current ∉ list)
    : rotateAfter current list = list :=
  if_neg absent

/-- An element goes to the end, what stands before it goes behind what stands after it. -/
theorem rotateAfter_split {before after : List α} {current : α} (fresh : current ∉ before)
    : rotateAfter current (before ++ current :: after) = after ++ (before ++ [current]) := by
  have member : current ∈ before ++ current :: after := by simp
  have position : (before ++ current :: after).idxOf current = before.length := by
    rw [List.idxOf_append_of_notMem fresh, List.idxOf_cons_self, Nat.add_zero]
  have joined : before ++ current :: after = (before ++ [current]) ++ after := by simp
  have length : before.length + 1 = (before ++ [current]).length := by simp
  unfold rotateAfter
  rw [if_pos member, position, joined, length, List.rotate_append_length_eq]

theorem rotateAfter_perm (current : α) (list : List α) : (rotateAfter current list).Perm list := by
  unfold rotateAfter
  split
  · exact List.rotate_perm list _
  · exact .rfl

/-- Who is first among the wanted ones behind an element is last among them behind himself, and
the others keep their order.
-/
theorem filter_rotateAfter {list rest : List α} (distinct : list.Nodup) {wanted : α → Bool}
    {current next : α} (order : (rotateAfter current list).filter wanted = next :: rest)
    : (rotateAfter next list).filter wanted = rest ++ [next] := by
  have fresh {element : α} {before after : List α} (whole : list = before ++ element :: after)
      : element ∉ before := by
    intro member
    rw [whole] at distinct
    exact (List.disjoint_of_nodup_append distinct) member List.mem_cons_self
  by_cases member : current ∈ list
  · obtain ⟨before, after, whole⟩ := List.append_of_mem member
    rw [whole, rotateAfter_split (fresh whole), List.filter_append, List.filter_append] at order
    -- the next one stands behind the current one, or in front of him, or is himself
    cases behind : after.filter wanted with
    | cons first others =>
        rw [behind] at order
        obtain ⟨rfl, restEq⟩ := List.cons.inj order
        obtain ⟨skipped, later, split, none, isWanted, laterEq⟩ := List.filter_eq_cons_iff.mp behind
        have noneWanted : skipped.filter wanted = [] := List.filter_eq_nil_iff.mpr none
        have around : list = (before ++ current :: skipped) ++ first :: later := by
          rw [whole, split]
          simp
        rw [around, rotateAfter_split (fresh around), ← restEq, ← laterEq]
        cases isCurrent : wanted current <;>
          simp [List.filter_append, noneWanted, isWanted, isCurrent]
    | nil =>
        rw [behind, List.nil_append] at order
        cases ahead : before.filter wanted with
        | cons first others =>
            rw [ahead] at order
            obtain ⟨rfl, restEq⟩ := List.cons.inj order
            obtain ⟨skipped, later, split, none, isWanted, laterEq⟩ :=
              List.filter_eq_cons_iff.mp ahead
            have noneWanted : skipped.filter wanted = [] := List.filter_eq_nil_iff.mpr none
            have around : list = skipped ++ first :: (later ++ current :: after) := by
              rw [whole, split]
              simp
            rw [around, rotateAfter_split (fresh around), ← restEq, ← laterEq]
            cases isCurrent : wanted current <;>
              simp [List.filter_append, noneWanted, isWanted, behind, isCurrent]
        | nil =>
            rw [ahead, List.nil_append] at order
            have self : next ∈ [current].filter wanted := by
              rw [order]
              exact List.mem_cons_self
            obtain ⟨isSelf, isWanted⟩ := List.mem_filter.mp self
            obtain rfl : next = current := List.mem_singleton.mp isSelf
            rw [List.filter_cons_of_pos isWanted] at order
            obtain ⟨-, restEq⟩ := List.cons.inj order
            rw [whole, rotateAfter_split (fresh whole), ← restEq]
            simp [List.filter_append, ahead, behind, isWanted]
  · rw [rotateAfter_of_notMem member] at order
    obtain ⟨skipped, later, split, none, isWanted, restEq⟩ := List.filter_eq_cons_iff.mp order
    have noneWanted : skipped.filter wanted = [] := List.filter_eq_nil_iff.mpr none
    rw [split, rotateAfter_split (fresh split), ← restEq]
    simp [List.filter_append, noneWanted, isWanted]

end

end Foundation
