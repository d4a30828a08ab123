import Mathlib.Algebra.Group.Nat.Defs
import Mathlib.Data.List.Basic

/-! The allocation of instance ids: those that the database holds are marked in a bitmap, and a
cursor passes over them.
-/

namespace WarheadCore.Instances

/-- The cursor stops here, where no id is left. -/
def lastInstanceId : Nat := 0xFFFFFFFF

structure MapMgr where
  instanceIds : List Bool := []
  nextInstanceId : Nat := 0
  /-- `World::StopNow` has been called. -/
  stopped : Bool := false

namespace MapMgr

/-- The largest id of the database is 0 where it holds none. -/
def initInstanceIds (maxId : Nat) : MapMgr :=
  { instanceIds := List.replicate ((maxId + 1) % 2 ^ 32) false, nextInstanceId := 1 }

/-- An id beyond the bitmap would be written out of its bounds. -/
def registerInstanceId (mgr : MapMgr) (instanceId : Nat) : Option MapMgr :=
  if instanceId < mgr.instanceIds.length then
    some { mgr with
      instanceIds := mgr.instanceIds.set instanceId true
      nextInstanceId :=
        if mgr.nextInstanceId = instanceId then (mgr.nextInstanceId + 1) % 2 ^ 32
        else mgr.nextInstanceId }
  else none

/-- The loop of `GenerateInstanceId`. -/
def advance (instanceIds : List Bool) (next : Nat) : Nat :=
  if next < lastInstanceId then
    if instanceIds[next + 1]? = some true then advance instanceIds (next + 1) else next + 1
  else next
termination_by lastInstanceId - next

/-- The state after the call; the id that it returns is the cursor before. -/
def generateInstanceId (mgr : MapMgr) : MapMgr :=
  let next := advance mgr.instanceIds mgr.nextInstanceId
  { mgr with nextInstanceId := next, stopped := mgr.stopped || next == lastInstanceId }

def loadInstanceIds (maxId : Nat) (ids : List Nat) : Option MapMgr :=
  ids.foldlM registerInstanceId (initInstanceIds maxId)

def after : Nat → MapMgr → MapMgr
  | 0, mgr => mgr
  | calls + 1, mgr => after calls mgr.generateInstanceId

/-- The ids that so many calls return. -/
def generated : Nat → MapMgr → List Nat
  | 0, _ => []
  | calls + 1, mgr => mgr.nextInstanceId :: generated calls mgr.generateInstanceId

-- The cursor

/-- What the loop passes over is registered, and what it ends at is not, unless it is the end. -/
theorem advance_spec (instanceIds : List Bool) (next : Nat) (le : next ≤ lastInstanceId)
    : next ≤ advance instanceIds next ∧ advance instanceIds next ≤ lastInstanceId
      ∧ (advance instanceIds next ≠ lastInstanceId →
        next < advance instanceIds next
        ∧ instanceIds[advance instanceIds next]? ≠ some true) := by
  fun_induction advance instanceIds next with
  | case1 next below registered ih =>
      obtain ⟨up, end_, free⟩ := ih below
      exact ⟨by omega, end_, fun other => ⟨by omega, (free other).2⟩⟩
  | case2 next below free => exact ⟨by omega, below, fun _ => ⟨by omega, free⟩⟩
  | case3 next last => exact ⟨Nat.le_refl _, le, fun other => absurd (by omega) other⟩

/-- The bitmap marks the ids, and the cursor is at the lowest that is not among them. -/
structure Tracks (ids : List Nat) (mgr : MapMgr) : Prop where
  marked : ∀ id, mgr.instanceIds[id]? = some true ↔ id ∈ ids
  passed : ∀ id, 1 ≤ id → id < mgr.nextInstanceId → id ∈ ids
  free : mgr.nextInstanceId ∉ ids
  positive : 1 ≤ mgr.nextInstanceId

variable {ids : List Nat} {mgr : MapMgr} {maxId id calls : Nat}

theorem tracks_initInstanceIds (maxId : Nat) : Tracks [] (initInstanceIds maxId) where
  marked := by simp [initInstanceIds, List.getElem?_replicate]
  passed := fun id positive below => absurd below (by simp [initInstanceIds]; omega)
  free := List.not_mem_nil
  positive := Nat.le_refl _

theorem Tracks.registerInstanceId (tracks : Tracks ids mgr) (later : ∀ other ∈ ids, other < id)
    (within : id < mgr.instanceIds.length) (small : id < lastInstanceId)
    : ∃ next, mgr.registerInstanceId id = some next ∧ Tracks (ids ++ [id]) next
        ∧ next.instanceIds.length = mgr.instanceIds.length ∧ next.stopped = mgr.stopped := by
  refine ⟨_, if_pos within, ⟨fun other => ?_, fun other positive below => ?_, ?_, ?_⟩,
    List.length_set, rfl⟩
  · rw [List.getElem?_set, List.mem_append, List.mem_singleton, ← tracks.marked]
    by_cases same : id = other
    · subst same
      simp [within]
    · simp [same, Ne.symm same]
  · dsimp only at below
    rw [List.mem_append, List.mem_singleton]
    unfold lastInstanceId at small
    by_cases last : other = id
    · exact .inr last
    · refine .inl (tracks.passed other positive ?_)
      split at below <;> omega
  · dsimp only
    rw [List.mem_append, List.mem_singleton]
    unfold lastInstanceId at small
    split
    · rintro (member | same)
      · have := later _ member
        omega
      · omega
    · rename_i other
      exact not_or.mpr ⟨tracks.free, other⟩
  · dsimp only
    have := tracks.positive
    unfold lastInstanceId at small
    split <;> omega

/-- Ids in ascending order are all registered, by induction on those that are left. -/
theorem Tracks.foldlM_registerInstanceId {rest : List Nat} (tracks : Tracks ids mgr)
    (ascending : (ids ++ rest).Pairwise (· < ·))
    (within : ∀ id ∈ rest, id < mgr.instanceIds.length ∧ id < lastInstanceId)
    : ∃ loaded, rest.foldlM MapMgr.registerInstanceId mgr = some loaded
        ∧ Tracks (ids ++ rest) loaded ∧ loaded.stopped = mgr.stopped := by
  induction rest generalizing ids mgr with
  | nil => exact ⟨mgr, rfl, by simpa using tracks, rfl⟩
  | cons id rest ih =>
      obtain ⟨inside, small⟩ := within id List.mem_cons_self
      obtain ⟨next, registered, tracked, length, stopped⟩ := tracks.registerInstanceId
        (fun other member => (List.pairwise_append.mp ascending).2.2 other member id
          List.mem_cons_self) inside small
      have step : next.stopped = mgr.stopped := stopped
      rw [List.append_cons] at ascending ⊢
      obtain ⟨loaded, folded, all, kept⟩ := ih tracked ascending fun other member => by
        rw [length]
        exact within other (List.mem_cons_of_mem _ member)
      exact ⟨loaded, by rw [List.foldlM_cons, registered]; exact folded, all, kept.trans step⟩

/-- All ids of the database are registered. -/
theorem exists_loadInstanceIds (ascending : ids.Pairwise (· < ·)) (within : ∀ id ∈ ids, id ≤ maxId)
    (small : maxId < lastInstanceId)
    : ∃ mgr, loadInstanceIds maxId ids = some mgr ∧ Tracks ids mgr ∧ mgr.stopped = false := by
  refine (tracks_initInstanceIds maxId).foldlM_registerInstanceId ascending fun id member => ?_
  have le := within id member
  unfold lastInstanceId at small ⊢
  simp only [initInstanceIds, List.length_replicate]
  omega

-- Calls

/-- The cursor is at an id that is not registered, and not beyond the end. -/
structure Ready (ids : List Nat) (mgr : MapMgr) : Prop where
  marked : ∀ id, mgr.instanceIds[id]? = some true ↔ id ∈ ids
  free : mgr.nextInstanceId ∉ ids
  bounded : mgr.nextInstanceId ≤ lastInstanceId

theorem Tracks.ready (tracks : Tracks ids mgr) (small : ∀ id ∈ ids, id < lastInstanceId)
    : Ready ids mgr where
  marked := tracks.marked
  free := tracks.free
  bounded := by
    have positive := tracks.positive
    by_contra beyond
    have := small _ (tracks.passed (mgr.nextInstanceId - 1) (by unfold lastInstanceId at *; omega)
      (by omega))
    omega

theorem Ready.generateInstanceId (ready : Ready ids mgr)
    (running : mgr.generateInstanceId.stopped = false)
    : Ready ids mgr.generateInstanceId
        ∧ mgr.nextInstanceId < mgr.generateInstanceId.nextInstanceId := by
  obtain ⟨-, bounded, other⟩ := advance_spec mgr.instanceIds mgr.nextInstanceId ready.bounded
  simp only [MapMgr.generateInstanceId, Bool.or_eq_false_iff, beq_eq_false_iff_ne] at running
  obtain ⟨up, free⟩ := other running.2
  exact ⟨⟨ready.marked, fun member => free ((ready.marked _).mpr member), bounded⟩, up⟩

theorem stopped_after (calls : Nat) {mgr : MapMgr} (stopped : mgr.stopped = true)
    : (after calls mgr).stopped = true := by
  induction calls generalizing mgr with
  | zero => exact stopped
  | succ calls ih => exact ih (by simp [MapMgr.generateInstanceId, stopped])

/-- The calls up to the one that stops the server, by induction on their number. -/
theorem Ready.generated (ready : Ready ids mgr) (running : (after calls mgr).stopped = false)
    : (generated (calls + 1) mgr).Pairwise (· < ·)
      ∧ ∀ id ∈ generated (calls + 1) mgr, id ∉ ids ∧ mgr.nextInstanceId ≤ id := by
  induction calls generalizing mgr with
  | zero => simpa [MapMgr.generated] using ready.free
  | succ calls ih =>
      have first : mgr.generateInstanceId.stopped = false := by
        refine Bool.eq_false_iff.mpr fun stopped => ?_
        have still := stopped_after calls stopped
        rw [after, still] at running
        cases running
      obtain ⟨next, up⟩ := ready.generateInstanceId first
      obtain ⟨ascending, all⟩ := ih next running
      rw [MapMgr.generated]
      refine ⟨List.pairwise_cons.mpr ⟨fun id member => ?_, ascending⟩, fun id member => ?_⟩
      · exact Nat.lt_of_lt_of_le up (all id member).2
      · rcases List.mem_cons.mp member with rfl | member
        · exact ⟨ready.free, Nat.le_refl _⟩
        · obtain ⟨new, above⟩ := all id member
          exact ⟨new, by omega⟩

/-- Calls that are made before the server has been stopped return ids in ascending order, none of
them registered, from the lowest on.
-/
theorem generated_of_loadInstanceIds (maxId : Nat) (ids : List Nat)
    (ascending : ids.Pairwise (· < ·)) (within : ∀ id ∈ ids, id ≤ maxId)
    (small : maxId < lastInstanceId)
    : ∃ mgr, loadInstanceIds maxId ids = some mgr
      ∧ (1 ≤ mgr.nextInstanceId ∧ mgr.nextInstanceId ∉ ids
          ∧ ∀ id, 1 ≤ id → id ∉ ids → mgr.nextInstanceId ≤ id)
      ∧ ∀ calls, (after calls mgr).stopped = false →
          (generated (calls + 1) mgr).head? = some mgr.nextInstanceId
          ∧ (generated (calls + 1) mgr).Pairwise (· < ·) ∧ (generated (calls + 1) mgr).Nodup
          ∧ ∀ id ∈ generated (calls + 1) mgr, id ∉ ids := by
  obtain ⟨mgr, loaded, tracks, -⟩ := exists_loadInstanceIds ascending within small
  have ready := tracks.ready fun id member => Nat.lt_of_le_of_lt (within id member) small
  refine ⟨mgr, loaded, ⟨tracks.positive, tracks.free, fun id positive new => ?_⟩,
    fun calls running => ?_⟩
  · by_contra below
    exact new (tracks.passed id positive (by omega))
  · obtain ⟨ascending, all⟩ := ready.generated running
    exact ⟨rfl, ascending, ascending.imp Nat.ne_of_lt, fun id member => (all id member).1⟩

theorem generated_of_loadInstanceIds_applied
    : ∃ mgr, loadInstanceIds 4 [1, 2, 4] = some mgr ∧ mgr.nextInstanceId = 3 := by
  obtain ⟨mgr, loaded, ⟨positive, free, lowest⟩, -⟩ :=
    generated_of_loadInstanceIds 4 [1, 2, 4] (by decide) (by decide) (by decide)
  refine ⟨mgr, loaded, ?_⟩
  have le := lowest 3 (by decide) (by decide)
  simp only [List.mem_cons, List.not_mem_nil, or_false, not_or] at free
  omega

/-- Where all ids are taken the last one is returned by every call. -/
theorem generated_repeats_last_id
    : ∃ maxId ids mgr, ids.Pairwise (· < ·) ∧ (∀ id ∈ ids, id ≤ maxId) ∧ maxId < lastInstanceId
        ∧ loadInstanceIds maxId ids = some mgr
        ∧ generated 2 mgr = [lastInstanceId, lastInstanceId] := by
  have ascending := List.pairwise_lt_range' (s := 1) (n := lastInstanceId - 1)
  have within : ∀ id ∈ List.range' 1 (lastInstanceId - 1), id ≤ lastInstanceId - 1 := by
    intro id member
    obtain ⟨-, below⟩ := List.mem_range'_1.mp member
    omega
  obtain ⟨mgr, loaded, tracks, -⟩ := exists_loadInstanceIds ascending within (by decide)
  have bounded := (tracks.ready fun id member => by
    have := within id member
    unfold lastInstanceId at *
    omega).bounded
  have last : mgr.nextInstanceId = lastInstanceId := by
    have free := tracks.free
    rw [List.mem_range'_1] at free
    have := tracks.positive
    unfold lastInstanceId at *
    omega
  refine ⟨_, _, mgr, ascending, within, by decide, loaded, ?_⟩
  simp only [generated, generateInstanceId, last]
  rw [advance, if_neg (Nat.lt_irrefl _)]

end MapMgr

end WarheadCore.Instances
