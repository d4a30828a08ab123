import Mathlib.Data.List.Lex
import WarheadCore.DungeonFinding.Queue

/-! The laws of the combinations of guids: an array of five slots, written out slot by slot in the
source, against the sorted list of the guids that it holds.
-/

namespace WarheadCore.DungeonFinding

namespace Lfg5Guids

/-- The operator `<`. -/
def less (x y : Lfg5Guids) : Bool :=
  if x.guid0 ≤ y.guid0 then
    if x.guid0 ≠ y.guid0 then true
    else if x.guid1 ≤ y.guid1 then
      if x.guid1 ≠ y.guid1 then true
      else if x.guid2 ≤ y.guid2 then
        if x.guid2 ≠ y.guid2 then true
        else if x.guid3 ≤ y.guid3 then
          if x.guid3 ≠ y.guid3 then true
          else if x.guid4 ≤ y.guid4 then !(x.guid4 == y.guid4)
          else false
        else false
      else false
    else false
  else false

/-- The insertion of `std::set`, which holds its keys in ascending order and takes two keys for
equal when neither is less than the other.
-/
def setInsert (x : Lfg5Guids) : List Lfg5Guids → List Lfg5Guids
  | [] => [x]
  | y :: keys =>
      if less x y then x :: y :: keys
      else if less y x then y :: setInsert x keys
      else y :: keys

-- The order of the combinations

/-- The cascade of comparisons is the lexicographic order of the slots. -/
theorem less_iff (x y : Lfg5Guids) : less x y = true ↔ x.guids < y.guids := by
  unfold less guids
  simp only [List.cons_lt_cons_iff, List.lt_irrefl, and_false, or_false]
  split_ifs <;> simp <;> omega

theorem less_trichotomy (x y : Lfg5Guids)
    : (less x y = true ∧ sameGuids x y = false ∧ less y x = false)
      ∨ (less x y = false ∧ sameGuids x y = true ∧ less y x = false)
      ∨ (less x y = false ∧ sameGuids x y = false ∧ less y x = true) := by
  have hxy := less_iff x y
  have hyx := less_iff y x
  unfold sameGuids
  rcases lt_trichotomy x.guids y.guids with hl | hs | hl
  · left
    refine ⟨hxy.mpr hl, decide_eq_false hl.ne, ?_⟩
    exact Bool.eq_false_iff.mpr fun h => lt_asymm hl (hyx.mp h)
  · right; left
    refine ⟨?_, decide_eq_true hs, ?_⟩
    · exact Bool.eq_false_iff.mpr fun h => (hxy.mp h).ne hs
    · exact Bool.eq_false_iff.mpr fun h => (hyx.mp h).ne' hs
  · right; right
    refine ⟨?_, decide_eq_false hl.ne', hyx.mpr hl⟩
    exact Bool.eq_false_iff.mpr fun h => lt_asymm hl (hxy.mp h)

theorem less_trans (x y z : Lfg5Guids) (hxy : less x y = true) (hyz : less y z = true)
    : less x z = true :=
  (less_iff x z).mpr (lt_trans ((less_iff x y).mp hxy) ((less_iff y z).mp hyz))

/-- Which combinations a set holds after an insertion, roles left aside. -/
theorem exists_setInsert (x : Lfg5Guids) (keys : List Lfg5Guids) (guids : List Nat)
    : (∃ z ∈ setInsert x keys, z.guids = guids)
      ↔ x.guids = guids ∨ ∃ z ∈ keys, z.guids = guids := by
  induction keys with
  | nil => simp [setInsert]
  | cons y keys ih =>
      simp only [setInsert]
      split_ifs with hxy hyx
      · simp
      · simp only [List.exists_mem_cons_iff, ih]
        tauto
      · -- neither is less, so the key that is there already is equal
        have he : x.guids = y.guids := by
          rcases less_trichotomy x y with ⟨h, -, -⟩ | ⟨-, h, -⟩ | ⟨-, -, h⟩
          · exact absurd h hxy
          · exact of_decide_eq_true h
          · exact absurd h hyx
        simp only [List.exists_mem_cons_iff, he]
        tauto

theorem setInsert_ascending (x : Lfg5Guids) (keys : List Lfg5Guids)
    (ascending : keys.Pairwise fun a b => less a b = true)
    : (setInsert x keys).Pairwise (fun a b => less a b = true)
      ∧ ∀ z ∈ setInsert x keys, z = x ∨ z ∈ keys := by
  induction keys with
  | nil => simp [setInsert]
  | cons y keys ih =>
      obtain ⟨hy, hk⟩ := List.pairwise_cons.mp ascending
      obtain ⟨ha, hm⟩ := ih hk
      simp only [setInsert]
      split_ifs with hxy hyx
      · refine ⟨List.pairwise_cons.mpr ⟨fun z hz => ?_, ascending⟩, fun z hz => List.mem_cons.mp hz⟩
        rcases List.mem_cons.mp hz with rfl | hz
        · exact hxy
        · exact less_trans x y z hxy (hy z hz)
      · refine ⟨List.pairwise_cons.mpr ⟨fun z hz => ?_, ha⟩, fun z hz => ?_⟩
        · rcases hm z hz with rfl | hz
          · exact hyx
          · exact hy z hz
        · rcases List.mem_cons.mp hz with rfl | hz
          · exact .inr List.mem_cons_self
          · exact (hm z hz).imp_right (List.mem_cons_of_mem y)
      · exact ⟨ascending, fun z hz => .inr hz⟩

theorem foldl_setInsert (inserted keys : List Lfg5Guids)
    (ascending : keys.Pairwise fun a b => less a b = true)
    : (inserted.foldl (fun keys x => setInsert x keys) keys).Pairwise
        (fun a b => less a b = true)
      ∧ ∀ guids, (∃ z ∈ inserted.foldl (fun keys x => setInsert x keys) keys, z.guids = guids)
          ↔ (∃ z ∈ inserted, z.guids = guids) ∨ ∃ z ∈ keys, z.guids = guids := by
  induction inserted generalizing keys with
  | nil => exact ⟨ascending, by simp⟩
  | cons x inserted ih =>
      obtain ⟨ha, hm⟩ := ih (setInsert x keys) (setInsert_ascending x keys ascending).1
      refine ⟨ha, fun guids => ?_⟩
      rw [List.foldl_cons, hm guids, exists_setInsert, List.exists_mem_cons_iff, ← or_assoc]
      exact or_congr_left or_comm

-- The guids that an array holds

def ofList (guids : List Nat) : Lfg5Guids where
  guid0 := guids.getD 0 0
  guid1 := guids.getD 1 0
  guid2 := guids.getD 2 0
  guid3 := guids.getD 3 0
  guid4 := guids.getD 4 0

variable {guids : List Nat} (filled : 0 ∉ guids)

include filled

theorem insert_ofList (g : Nat) (room : guids.length < 5)
    : (ofList guids).insert g = ofList (guids.orderedInsert (· ≤ ·) g) := by
  match guids with
  | [] => simp [ofList, Lfg5Guids.insert]
  | [a] | [a, b] | [a, b, c] | [a, b, c, d] =>
      simp only [List.mem_cons, List.not_mem_nil, or_false, not_or, eq_comm (a := 0)] at filled
      simp only [Lfg5Guids.insert, ofList, List.orderedInsert, List.getD_cons_zero,
        List.getD_cons_succ, List.getD_nil, filled, ne_eq, not_false_eq_true, not_true_eq_false,
        if_true, if_false]
      split_ifs <;> rfl
  | a :: b :: c :: d :: e :: rest =>
      simp only [List.length_cons] at room
      omega

theorem remove_ofList (g : Nat) (fits : guids.length ≤ 5)
    : (ofList guids).remove g = ofList (guids.erase g) := by
  match guids with
  | [] => by_cases hg : 0 = g <;> simp [ofList, Lfg5Guids.remove, hg]
  | [a] | [a, b] | [a, b, c] | [a, b, c, d] | [a, b, c, d, e] =>
      simp only [List.mem_cons, List.not_mem_nil, or_false, not_or, eq_comm (a := 0)] at filled
      simp only [Lfg5Guids.remove, ofList, List.erase_cons, List.erase_nil, beq_iff_eq,
        List.getD_cons_zero, List.getD_cons_succ, List.getD_nil, filled, if_true, if_false]
      split_ifs <;> rfl
  | a :: b :: c :: d :: e :: f :: rest =>
      simp only [List.length_cons] at fits
      omega

theorem size_ofList (fits : guids.length ≤ 5)
    : (ofList guids).size = guids.length ∧ (ofList guids).guids.filter (· ≠ 0) = guids := by
  match guids with
  | [] | [a] | [a, b] | [a, b, c] | [a, b, c, d] | [a, b, c, d, e] =>
      simp only [List.mem_cons, List.not_mem_nil, or_false, not_or, eq_comm (a := 0)] at filled
      simp [Lfg5Guids.size, ofList, Lfg5Guids.guids, filled]
  | a :: b :: c :: d :: e :: f :: rest =>
      simp only [List.length_cons] at fits
      omega

end Lfg5Guids

-- The laws of the combinations

/-- At most five guids in ascending order, none of which is empty. -/
structure SortedGuids where
  guids : List Nat
  sorted : guids.Pairwise (· ≤ ·)
  filled : 0 ∉ guids
  fits : guids.length ≤ 5

def SortedGuids.array (combination : SortedGuids) : Lfg5Guids := Lfg5Guids.ofList combination.guids

theorem Lfg5Guids.laws (combination : SortedGuids)
    : (combination.guids.length < 5 → ∀ g, g ≠ 0 →
        ∃ extended : SortedGuids, combination.array.insert g = extended.array
          ∧ extended.guids.Perm (g :: combination.guids))
      ∧ (∀ g, ∃ shortened : SortedGuids, combination.array.remove g = shortened.array
          ∧ shortened.guids = combination.guids.erase g)
      ∧ combination.array.size = (combination.array.guids.filter (· ≠ 0)).length
      ∧ combination.array.guids.filter (· ≠ 0) = combination.guids
      ∧ (∀ x, less x x = false)
      ∧ (∀ x y z, less x y = true → less y z = true → less x z = true)
      ∧ (∀ x y, sameGuids x y = true ↔ less x y = false ∧ less y x = false)
      ∧ ∀ inserted : List Lfg5Guids,
          ((inserted.foldl (fun keys x => setInsert x keys) []).Pairwise
              fun x y => sameGuids x y = false)
          ∧ ∀ guids, (∃ x ∈ inserted.foldl (fun keys x => setInsert x keys) [], x.guids = guids)
              ↔ ∃ x ∈ inserted, x.guids = guids := by
  obtain ⟨guids, sorted, filled, fits⟩ := combination
  obtain ⟨size, slots⟩ := size_ofList filled fits
  refine ⟨fun room g hg => ?_, fun g => ?_, size.trans (congrArg List.length slots).symm, slots, ?_,
    less_trans, ?_, ?_⟩
  · have hp := List.perm_orderedInsert (· ≤ ·) g guids
    refine ⟨⟨guids.orderedInsert (· ≤ ·) g, sorted.orderedInsert g guids, ?_, ?_⟩,
      insert_ofList filled g room, hp⟩
    · rw [hp.mem_iff, List.mem_cons]
      exact not_or.mpr ⟨hg.symm, filled⟩
    · rw [hp.length_eq]
      exact room
  · refine ⟨⟨guids.erase g, sorted.sublist List.erase_sublist, ?_, ?_⟩,
      remove_ofList filled g fits, rfl⟩
    · exact fun h => filled (List.mem_of_mem_erase h)
    · exact (List.erase_sublist.length_le).trans fits
  · intro x
    rcases less_trichotomy x x with ⟨-, -, h⟩ | ⟨h, -⟩ | ⟨h, -⟩ <;> exact h
  · intro x y
    rcases less_trichotomy x y with ⟨h, h', -⟩ | ⟨h, h', hy⟩ | ⟨-, h', hy⟩ <;> simp [*]
  · intro inserted
    obtain ⟨ha, hm⟩ := foldl_setInsert inserted [] List.Pairwise.nil
    refine ⟨ha.imp fun {x y} hl => ?_, fun guids => by simpa using hm guids⟩
    rcases less_trichotomy x y with ⟨-, h, -⟩ | ⟨h, -⟩ | ⟨h, -⟩
    · exact h
    · rw [hl] at h; cases h
    · rw [hl] at h; cases h

/-- The empty guid goes before the others and is counted by the size. -/
theorem Lfg5Guids.insert_empty_guid
    : ∃ combination : SortedGuids, combination.guids.length < 5
      ∧ (combination.array.insert 0).size
          ≠ ((combination.array.insert 0).guids.filter (· ≠ 0)).length :=
  ⟨⟨[5], by decide, by decide, by decide⟩, by decide, by decide⟩

end WarheadCore.DungeonFinding
