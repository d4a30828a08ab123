import Mathlib.Algebra.BigOperators.Group.List.Basic
import Mathlib.Algebra.Order.Ring.Nat
import Mathlib.Data.List.Sort

/-! Recurring events with one pending event per owner.
Every pending event has a time at which it is due and a successor that is not due before it. A
tick of the clock fires the events that are due before it, each time replacing the event by its
successor, until nothing is due.
-/

namespace Foundation

variable {κ σ : Type*} {due : σ → Int} {next : σ → σ}

/-- One tick fires, starting at a pending event, exactly the successors due before the tick. -/
inductive CaughtUp (due : σ → Int) (next : σ → σ) (tick : Nat) : σ → List σ → σ → Prop where
  | done {pending} (notDue : tick ≤ due pending) : CaughtUp due next tick pending [] pending
  | fire {pending fired last} (isDue : due pending < tick)
    (later : CaughtUp due next tick (next pending) fired last)
    : CaughtUp due next tick pending (pending :: fired) last

/-- The events fired by a sequence of ticks are the successors of the first one in order, each
fired by the first tick after it was due, and the pending event is due at no tick so far.
-/
structure OnTime (due : σ → Int) (next : σ → σ) (ticks : List Nat) (first : σ)
    (fired : List (Nat × σ)) (pending : σ) : Prop where
  inOrder : fired.map Prod.snd = (List.range fired.length).map (fun index => next^[index] first)
  pendingIsNext : pending = next^[fired.length] first
  firedAtFirstTick : ∀ entry ∈ fired,
    ticks.find? (fun tick : Nat => decide (due entry.2 < tick)) = some entry.1
  noneSkipped : ∀ tick ∈ ticks, (tick : Int) ≤ due pending

-- Ticks, one after the other

/-- The pending event after a tick is not due. -/
theorem CaughtUp.notDue {tick : Nat} {pending last : σ} {fired : List σ}
    (h : CaughtUp due next tick pending fired last)
    : (tick : Int) ≤ due last := by
  induction h with
  | done notDue => exact notDue
  | fire _ _ ih => exact ih

/-- What a tick fires are the successors of the pending event, by induction on the tick. -/
theorem CaughtUp.successors {tick : Nat} {pending last : σ} {fired : List σ}
    (h : CaughtUp due next tick pending fired last)
    : fired = (List.range fired.length).map (fun index => next^[index] pending)
      ∧ last = next^[fired.length] pending := by
  induction h with
  | done _ => exact ⟨rfl, rfl⟩
  | @fire pending fired last _ _ ih =>
      refine ⟨?_, ih.2⟩
      rw [List.length_cons, List.range_succ_eq_map, List.map_cons, List.map_map]
      exact congrArg (List.cons pending) ih.1

/-- What a tick fires was due before it, and not before the first of them. -/
theorem CaughtUp.fired_due (ordered : ∀ event, due event ≤ due (next event)) {tick : Nat}
    {pending last : σ} {fired : List σ} (h : CaughtUp due next tick pending fired last)
    : ∀ event ∈ fired, due event < tick ∧ due pending ≤ due event := by
  induction h with
  | done _ => simp
  | @fire pending fired last isDue _ ih =>
      intro event member
      rcases List.mem_cons.mp member with rfl | later
      · exact ⟨isDue, le_refl _⟩
      · exact ⟨(ih event later).1, (ordered pending).trans (ih event later).2⟩

/-- A tick does not move the pending event back. -/
theorem CaughtUp.due_le (ordered : ∀ event, due event ≤ due (next event)) {tick : Nat}
    {pending last : σ} {fired : List σ} (h : CaughtUp due next tick pending fired last)
    : due pending ≤ due last := by
  induction h with
  | done _ => exact le_refl _
  | fire _ _ ih => exact (ordered _).trans ih

/-- Before the first tick nothing has fired. -/
theorem OnTime.start (first : σ)
    : OnTime due next [] first [] first where
  inOrder := rfl
  pendingIsNext := rfl
  firedAtFirstTick := by simp
  noneSkipped := by simp

/-- One more tick keeps events on time.
Witness: the pending event was due at no earlier tick, so neither is any of its successors.
-/
theorem OnTime.tick (ordered : ∀ event, due event ≤ due (next event)) {ticks : List Nat}
    {first pending last : σ} {fired : List (Nat × σ)} {tick : Nat} {more : List σ}
    (h : OnTime due next ticks first fired pending)
    (caught : CaughtUp due next tick pending more last)
    : OnTime due next (ticks ++ [tick]) first (fired ++ more.map (fun event => (tick, event))) last where
  inOrder := by
    have unfolded : more.map (Prod.snd ∘ fun event => (tick, event)) = more :=
      List.map_id more
    rw [List.map_append, List.map_map, unfolded, List.length_append, List.length_map,
      List.range_add, List.map_append, ← h.inOrder, List.map_map]
    refine congrArg (List.append _) (caught.successors.1.trans ?_)
    refine List.map_congr_left (fun index _ => ?_)
    rw [h.pendingIsNext, Function.comp_apply, ← Function.iterate_add_apply, Nat.add_comm]
  pendingIsNext := by
    rw [List.length_append, List.length_map, caught.successors.2, h.pendingIsNext,
      ← Function.iterate_add_apply, Nat.add_comm]
  firedAtFirstTick := by
    intro entry member
    rcases List.mem_append.mp member with earlier | now
    · rw [List.find?_append, h.firedAtFirstTick entry earlier, Option.some_or]
    · obtain ⟨event, fires, rfl⟩ := List.mem_map.mp now
      obtain ⟨isDue, notBefore⟩ := caught.fired_due ordered event fires
      have silent : ticks.find? (fun earlier : Nat => decide (due event < earlier)) = none := by
        refine List.find?_eq_none.mpr (fun earlier member => ?_)
        have skipped := h.noneSkipped earlier member
        simp only [decide_eq_true_eq, not_lt]
        omega
      rw [List.find?_append, silent, Option.none_or, List.find?_singleton]
      exact if_pos (by simpa using isDue)
  noneSkipped := by
    intro earlier member
    rcases List.mem_append.mp member with before | now
    · exact (h.noneSkipped earlier before).trans (caught.due_le ordered)
    · rw [List.mem_singleton.mp now]
      exact caught.notDue

-- The pending events of several owners

variable {α : Type*}

/-- Insertion behind the entries of the same time keeps a queue in the order of its times. -/
theorem pairwise_orderedInsert {queue : List (Int × α)}
    (sorted : queue.Pairwise (fun earlier later => earlier.1 ≤ later.1)) (entry : Int × α)
    : (queue.orderedInsert (fun new old => new.1 < old.1) entry).Pairwise
        (fun earlier later => earlier.1 ≤ later.1) := by
  induction queue with
  | nil => simp
  | cons head rest ih =>
      obtain ⟨first, later⟩ := List.pairwise_cons.mp sorted
      rw [List.orderedInsert_cons]
      split
      · refine List.pairwise_cons.mpr ⟨fun other member => ?_, sorted⟩
        rcases List.mem_cons.mp member with rfl | tail
        · omega
        · have := first other tail
          omega
      · refine List.pairwise_cons.mpr ⟨fun other member => ?_, ih later⟩
        rcases (List.mem_orderedInsert _).mp member with rfl | tail
        · omega
        · exact first other tail

variable [DecidableEq κ]

/-- Changing one owner's event changes one entry.
Witness: the owner occurs once, so the other entries belong to the other owners.
-/
theorem perm_map_update {owners : List κ} (distinct : owners.Nodup) {owner : κ}
    (owned : owner ∈ owners) (entry : κ → σ → α) (standing : κ → σ) (event : σ)
    : (owners.map (fun other => entry other (Function.update standing owner event other))).Perm
        (entry owner event :: (owners.erase owner).map (fun other => entry other (standing other)))
        := by
  have kept : (owners.erase owner).map
        (fun other => entry other (Function.update standing owner event other))
      = (owners.erase owner).map (fun other => entry other (standing other)) := by
    refine List.map_congr_left (fun other member => ?_)
    have different : other ≠ owner := by
      rintro rfl
      exact distinct.not_mem_erase member
    rw [Function.update_of_ne different]
  refine ((List.perm_cons_erase owned).map _).trans ?_
  rw [List.map_cons, Function.update_self, kept]

/-- Replacing the first of the pending entries replaces the entry of its owner. -/
theorem perm_replace_first {owners : List κ} (distinct : owners.Nodup) {owner : κ}
    (owned : owner ∈ owners) {entry : κ → σ → α} {standing : κ → σ} {rest : List α}
    (pending : (entry owner (standing owner) :: rest).Perm
      (owners.map (fun other => entry other (standing other)))) (event : σ)
    : (entry owner event :: rest).Perm
        (owners.map (fun other => entry other (Function.update standing owner event other))) := by
  have others : rest.Perm ((owners.erase owner).map (fun other => entry other (standing other))) :=
    (pending.trans ((List.perm_cons_erase owned).map _)).cons_inv
  exact (others.cons _).trans (perm_map_update distinct owned entry standing event).symm

/-- Replacing one owner's event by one with less left lowers what is left in total. -/
theorem sum_update_lt {owners : List κ} (distinct : owners.Nodup) {owner : κ}
    (owned : owner ∈ owners) {standing : κ → σ} {event : σ} {left : σ → Nat}
    (less : left event < left (standing owner))
    : (owners.map (fun other => left (Function.update standing owner event other))).sum
      < (owners.map (fun other => left (standing other))).sum := by
  have before := ((List.perm_cons_erase owned).map (fun other => left (standing other))).sum_eq
  have after := (perm_map_update distinct owned (fun _ => left) standing event).sum_eq
  rw [List.map_cons, List.sum_cons] at before
  rw [List.sum_cons] at after
  omega

end Foundation
