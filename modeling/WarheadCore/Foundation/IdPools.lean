import Mathlib.Data.List.Nodup
import Mathlib.Data.List.Perm.Basic

/-! Numbers that are handed out, given back and handed out again.
A pool keeps the highest number and those below it that came back; giving back the highest number
lowers it instead. Whatever the order, no number is out twice.
-/

namespace Foundation

/-- The numbers that came back, the next one first, and the highest number. -/
structure IdPool where
  freeIds : List Nat := []
  maxId : Nat := 0

namespace IdPool

variable {pool : IdPool} {live : List Nat} {id : Nat}

def take (pool : IdPool) : Nat × IdPool :=
  match pool.freeIds with
  | [] => (pool.maxId + 1, { pool with maxId := pool.maxId + 1 })
  | id :: rest => (id, { pool with freeIds := rest })

def release (pool : IdPool) (id : Nat) : IdPool :=
  if id = pool.maxId then { pool with maxId := pool.maxId - 1 }
  else { pool with freeIds := pool.freeIds ++ [id] }

/-- The pool for numbers that are in use already: those below their highest one are free. -/
def ofLive (live : List Nat) : IdPool where
  freeIds := (List.range' 1 (live.foldl max 0 - 1)).filter (fun id => id ∉ live)
  maxId := live.foldl max 0

/-- The numbers that are out, and those that came back, are different and not above the highest. -/
structure Issued (pool : IdPool) (live : List Nat) : Prop where
  distinct : (live ++ pool.freeIds).Nodup
  positive : ∀ id ∈ live ++ pool.freeIds, 0 < id
  bounded : ∀ id ∈ live ++ pool.freeIds, id ≤ pool.maxId

theorem issued_nil : Issued {} [] where
  distinct := List.nodup_nil
  positive := fun _ member => (nomatch member)
  bounded := fun _ member => (nomatch member)

/-- The order of the numbers that are out does not matter. -/
theorem Issued.perm (issued : pool.Issued live) {other : List Nat} (same : live.Perm other)
    : pool.Issued other where
  distinct := (same.append_right pool.freeIds).nodup_iff.mp issued.distinct
  positive := fun id member => issued.positive id ((same.append_right _).mem_iff.mpr member)
  bounded := fun id member => issued.bounded id ((same.append_right _).mem_iff.mpr member)

theorem Issued.live_nodup (issued : pool.Issued live) : live.Nodup :=
  (List.nodup_append.mp issued.distinct).1

/-- A number that is handed out is not out yet. -/
theorem Issued.take_notMem (issued : pool.Issued live) : pool.take.1 ∉ live := by
  intro out
  unfold take at out
  split at out
  · have bound := issued.bounded _ (List.mem_append_left _ out)
    dsimp only at bound
    omega
  · next id rest free =>
      have member : id ∈ pool.freeIds := free ▸ List.mem_cons_self
      exact (List.nodup_append.mp issued.distinct).2.2 id out id member rfl

theorem Issued.take (issued : pool.Issued live) : pool.take.2.Issued (pool.take.1 :: live) := by
  have fresh := issued.take_notMem
  unfold IdPool.take at fresh ⊢
  split at fresh
  · next none_ =>
      refine ⟨?_, fun id member => ?_, fun id member => ?_⟩
      · have distinct := issued.distinct
        rw [none_, List.append_nil] at distinct
        simpa [none_] using ⟨fresh, distinct⟩
      · rcases List.mem_cons.mp member with rfl | member
        · exact Nat.succ_pos _
        · exact issued.positive id member
      · rcases List.mem_cons.mp member with rfl | member
        · exact Nat.le_refl _
        · exact Nat.le_succ_of_le (issued.bounded id member)
  · next id rest free =>
      have same : (id :: live ++ rest).Perm (live ++ pool.freeIds) := by
        rw [free]
        exact List.perm_middle.symm
      exact ⟨same.nodup_iff.mpr issued.distinct,
        fun other member => issued.positive other (same.mem_iff.mp member),
        fun other member => issued.bounded other (same.mem_iff.mp member)⟩

/-- A number that is out may come back. Below the highest number it is free, and the others are
below the highest number when it comes back itself.
-/
theorem Issued.release (issued : pool.Issued (id :: live)) : (pool.release id).Issued live := by
  have distinct := List.nodup_cons.mp issued.distinct
  have positive := fun other member => issued.positive other (List.mem_cons_of_mem id member)
  have bounded := fun other member => issued.bounded other (List.mem_cons_of_mem id member)
  unfold IdPool.release
  split
  · next highest =>
      refine ⟨distinct.2, positive, fun other member => ?_⟩
      have ne : other ≠ pool.maxId := by
        rintro rfl
        exact distinct.1 (highest ▸ member)
      have below := bounded other member
      dsimp only at *
      omega
  · have same : (live ++ (pool.freeIds ++ [id])).Perm (id :: (live ++ pool.freeIds)) := by
      rw [← List.append_assoc]
      exact List.perm_append_singleton id _
    exact ⟨same.nodup_iff.mpr issued.distinct,
      fun other member => issued.positive other (same.mem_iff.mp member),
      fun other member => issued.bounded other (same.mem_iff.mp member)⟩

/-- A maximum that is taken along a list is above its start and every number of the list. -/
theorem le_foldl_max {ids : List Nat} {start : Nat} (known : id ≤ start ∨ id ∈ ids)
    : id ≤ ids.foldl max start := by
  induction ids generalizing start with
  | nil => exact known.resolve_right (List.not_mem_nil)
  | cons head rest ih =>
      refine ih ?_
      rcases known with low | member
      · exact Or.inl (Nat.le_trans low (Nat.le_max_left start head))
      · rcases List.mem_cons.mp member with rfl | later
        · exact Or.inl (Nat.le_max_right start id)
        · exact Or.inr later

/-- The pool for numbers in use hands out others. -/
theorem issued_ofLive (distinct : live.Nodup) (positive : ∀ id ∈ live, 0 < id)
    : (ofLive live).Issued live where
  distinct := by
    have free := (@List.nodup_range' 1 (live.foldl max 0 - 1) 1 Nat.one_pos).filter
      (fun id => decide (id ∉ live))
    refine List.nodup_append.mpr ⟨distinct, free, fun id out other free => ?_⟩
    rintro rfl
    simpa [out] using (List.mem_filter.mp free).2
  positive := by
    intro id member
    rcases List.mem_append.mp member with out | free
    · exact positive id out
    · exact (List.mem_range'_1.mp (List.mem_filter.mp free).1).1
  bounded := by
    intro id member
    rcases List.mem_append.mp member with out | free
    · exact le_foldl_max (Or.inr out)
    · have range := List.mem_range'_1.mp (List.mem_filter.mp free).1
      change id ≤ live.foldl max 0
      omega

end IdPool

end Foundation
