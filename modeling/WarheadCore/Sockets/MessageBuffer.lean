import Mathlib.Data.List.Basic
import Mathlib.Order.Nat

/-! The buffers of sockets, with one position for reading and one for writing. -/

namespace WarheadCore.Sockets

structure MessageBuffer where
  _storage : List (BitVec 8)
  _wpos : Nat := 0
  _rpos : Nat := 0
  rpos_le : _rpos ≤ _wpos := by omega
  wpos_le : _wpos ≤ _storage.length := by omega

namespace MessageBuffer

def sized (initialSize : Nat) : MessageBuffer where
  _storage := List.replicate initialSize 0

def reset (buffer : MessageBuffer) : MessageBuffer where
  _storage := buffer._storage

variable (buffer : MessageBuffer)

def getActiveSize : Nat := buffer._wpos - buffer._rpos

def getRemainingSpace : Nat := buffer._storage.length - buffer._wpos

def active : List (BitVec 8) := (buffer._storage.take buffer._wpos).drop buffer._rpos

/-- The storage is resized, unless this would leave the write position outside. -/
def resize (bytes : Nat) : Option MessageBuffer :=
  if enough : buffer._wpos ≤ bytes then
    some {
      _storage := buffer._storage.take bytes ++ List.replicate (bytes - buffer._storage.length) 0
      _wpos := buffer._wpos
      _rpos := buffer._rpos
      rpos_le := buffer.rpos_le
      wpos_le := by
        have within := buffer.wpos_le
        simp only [List.length_append, List.length_take, List.length_replicate]
        omega }
  else none

/-- Reading past the write position is undefined. -/
def readCompleted (bytes : Nat) : Option MessageBuffer :=
  if enough : bytes ≤ buffer.getActiveSize then
    some { buffer with
      _rpos := buffer._rpos + bytes
      rpos_le := by
        have within := buffer.rpos_le
        unfold getActiveSize at enough
        omega }
  else none

def normalize : MessageBuffer where
  _storage := buffer.active ++ buffer._storage.drop buffer.getActiveSize
  _wpos := buffer.getActiveSize
  wpos_le := by
    have within := buffer.wpos_le
    simp only [active, getActiveSize, List.length_append, List.length_drop, List.length_take]
    omega

def ensureFreeSpace : MessageBuffer :=
  if buffer.getRemainingSpace = 0 then
    { buffer with
      _storage := buffer._storage
        ++ List.replicate (buffer._storage.length * 3 / 2 - buffer._storage.length) 0
      wpos_le := by
        have within := buffer.wpos_le
        simp only [List.length_append]
        omega }
  else buffer

/-- Writing past the end of the storage is undefined. -/
def write (data : List (BitVec 8)) : Option MessageBuffer :=
  if enough : data.length ≤ buffer.getRemainingSpace then
    some {
      _storage := buffer._storage.take buffer._wpos ++ data
        ++ buffer._storage.drop (buffer._wpos + data.length)
      _wpos := buffer._wpos + data.length
      _rpos := buffer._rpos
      rpos_le := by
        have within := buffer.rpos_le
        omega
      wpos_le := by
        have within := buffer.wpos_le
        unfold getRemainingSpace at enough
        simp only [List.length_append, List.length_take, List.length_drop]
        omega }
  else none

def overwrite (data : List (BitVec 8)) (same : data.length = buffer.getActiveSize)
    : MessageBuffer where
  _storage := buffer._storage.take buffer._rpos ++ data ++ buffer._storage.drop buffer._wpos
  _wpos := buffer._wpos
  _rpos := buffer._rpos
  rpos_le := buffer.rpos_le
  wpos_le := by
    have first := buffer.rpos_le
    have second := buffer.wpos_le
    unfold getActiveSize at same
    simp only [List.length_append, List.length_take, List.length_drop]
    omega

/-- The storage of a buffer that is moved from, which is left without any. -/
def move : List (BitVec 8) × MessageBuffer := (buffer._storage, sized 0)

-- What the operations do

variable {buffer}

theorem length_active : buffer.active.length = buffer.getActiveSize := by
  have within := buffer.wpos_le
  simp only [active, getActiveSize, List.length_drop, List.length_take]
  omega

/-- A buffer that was read up to the write position has nothing active. -/
theorem active_eq_nil : buffer.active = [] ↔ buffer._wpos = buffer._rpos := by
  have order := buffer.rpos_le
  rw [← List.length_eq_zero_iff, length_active, getActiveSize]
  omega

/-- Data that fits is active after what was. -/
theorem write_eq {data : List (BitVec 8)} (enough : data.length ≤ buffer.getRemainingSpace)
    : ∃ written, buffer.write data = some written
      ∧ written.active = buffer.active ++ data
      ∧ written._storage.length = buffer._storage.length
      ∧ written._rpos = buffer._rpos
      ∧ written._wpos = buffer._wpos + data.length := by
  have order := buffer.rpos_le
  have within := buffer.wpos_le
  unfold write
  rw [dif_pos enough]
  unfold getRemainingSpace at enough
  refine ⟨_, rfl, ?_, ?_, rfl, rfl⟩
  · have first : (buffer._storage.take buffer._wpos ++ data).length
        = buffer._wpos + data.length := by
      rw [List.length_append, List.length_take_of_le within]
    unfold active
    dsimp only
    rw [← first, List.take_left, List.drop_append_of_le_length]
    rw [List.length_take_of_le within]
    exact order
  · dsimp only
    simp only [List.length_append, List.length_take, List.length_drop]
    omega

/-- What was read is no longer active. -/
theorem readCompleted_eq {bytes : Nat} (enough : bytes ≤ buffer.getActiveSize)
    : ∃ read, buffer.readCompleted bytes = some read
      ∧ read.active = buffer.active.drop bytes
      ∧ read._storage.length = buffer._storage.length := by
  unfold readCompleted
  rw [dif_pos enough]
  exact ⟨_, rfl, (List.drop_drop ..).symm, rfl⟩

/-- A buffer without data takes any size. -/
theorem resize_eq (empty : buffer._wpos = 0) (bytes : Nat)
    : ∃ resized, buffer.resize bytes = some resized
      ∧ resized._storage.length = bytes ∧ resized._wpos = 0 ∧ resized._rpos = 0 := by
  have order := buffer.rpos_le
  unfold resize
  rw [dif_pos (empty.le.trans (Nat.zero_le bytes))]
  refine ⟨_, rfl, ?_, empty, Nat.le_zero.mp (order.trans empty.le)⟩
  simp only [List.length_append, List.length_take, List.length_replicate]
  omega

@[simp] theorem active_normalize : buffer.normalize.active = buffer.active := by
  unfold normalize
  rw [active]
  dsimp only
  rw [← length_active, List.take_left, List.drop_zero]

@[simp] theorem wpos_normalize : buffer.normalize._wpos = buffer.getActiveSize := rfl

theorem length_normalize : buffer.normalize._storage.length = buffer._storage.length := by
  have within := buffer.wpos_le
  unfold normalize
  simp only [List.length_append, List.length_drop, length_active, getActiveSize]
  omega

/-- Free space is not made where there is some. -/
theorem ensureFreeSpace_eq (free : 0 < buffer.getRemainingSpace)
    : buffer.ensureFreeSpace = buffer := by
  unfold ensureFreeSpace
  exact if_neg free.ne'

@[simp] theorem active_overwrite {data : List (BitVec 8)}
    (same : data.length = buffer.getActiveSize)
    : (buffer.overwrite data same).active = data := by
  have order := buffer.rpos_le
  have within := buffer.wpos_le
  unfold getActiveSize at same
  have before : (buffer._storage.take buffer._rpos).length = buffer._rpos :=
    List.length_take_of_le (order.trans within)
  have whole : (buffer._storage.take buffer._rpos ++ data).length = buffer._wpos := by
    rw [List.length_append, before, same]
    omega
  unfold overwrite active
  dsimp only
  rw [← whole, List.take_left, List.drop_append_of_le_length before.ge,
    List.drop_eq_nil_of_le before.le, List.nil_append]

@[simp] theorem length_overwrite {data : List (BitVec 8)}
    (same : data.length = buffer.getActiveSize)
    : (buffer.overwrite data same)._storage.length = buffer._storage.length := by
  have order := buffer.rpos_le
  have within := buffer.wpos_le
  unfold getActiveSize at same
  unfold overwrite
  simp only [List.length_append, List.length_take, List.length_drop]
  omega

-- From one buffer to another

/-- Neither storage changes its size, and the reader of the target stays where it is. -/
structure Moved (source read target written : MessageBuffer) : Prop where
  emptied : read._storage.length = source._storage.length
  filled : written._storage.length = target._storage.length
  start : written._rpos = target._rpos

/-- Bytes go from one buffer to another one, as many as there are and fit. -/
theorem transfer (source target : MessageBuffer)
    : ∃ data written read,
        target.write (source.active.take (min source.getActiveSize target.getRemainingSpace))
          = some written
        ∧ source.readCompleted (min source.getActiveSize target.getRemainingSpace) = some read
        ∧ source.active = data ++ read.active
        ∧ data.length = min source.getActiveSize target.getRemainingSpace
        ∧ written.active = target.active ++ data
        ∧ Moved source read target written := by
  have length : (source.active.take (min source.getActiveSize target.getRemainingSpace)).length
      = min source.getActiveSize target.getRemainingSpace := by
    rw [List.length_take, length_active, Nat.min_eq_left (Nat.min_le_left ..)]
  obtain ⟨written, write, active, space, start, -⟩ :=
    write_eq (length.le.trans (Nat.min_le_right ..))
  obtain ⟨read, complete, rest, same⟩ :=
    readCompleted_eq (Nat.min_le_left source.getActiveSize target.getRemainingSpace)
  refine ⟨_, written, read, write, complete, ?_, length, active, same, space, start⟩
  rw [rest, List.take_append_drop]

/-- The space that is left after the bytes that were received from the start. -/
theorem remaining_eq {buffer : MessageBuffer} (start : buffer._rpos = 0)
    : buffer.getRemainingSpace = buffer._storage.length - buffer.active.length := by
  rw [length_active, getActiveSize, start, Nat.sub_zero, getRemainingSpace]

-- A queue of bytes

inductive Call where
  | write (data : List (BitVec 8))
  | readCompleted (bytes : Nat)
  | normalize
  | ensureFreeSpace
  | resize (bytes : Nat)
  | reset

def call (buffer : MessageBuffer) : Call → Option MessageBuffer
  | .write data => buffer.write data
  | .readCompleted bytes => buffer.readCompleted bytes
  | .normalize => some buffer.normalize
  | .ensureFreeSpace => some buffer.ensureFreeSpace
  | .resize bytes => buffer.resize bytes
  | .reset => some buffer.reset

/-- What the calls are for: bytes go in at the end and come out at the front. -/
def Call.queue (bytes : List (BitVec 8)) : Call → List (BitVec 8)
  | .write data => bytes ++ data
  | .readCompleted count => bytes.drop count
  | .reset => []
  | _ => bytes

theorem active_ensureFreeSpace : buffer.ensureFreeSpace.active = buffer.active := by
  unfold ensureFreeSpace
  split
  · exact congrArg (List.drop _) (List.take_append_of_le_length buffer.wpos_le)
  · rfl

theorem active_resize {bytes : Nat} {resized : MessageBuffer}
    (done : buffer.resize bytes = some resized)
    : resized.active = buffer.active := by
  unfold resize at done
  split at done
  · next enough =>
      cases done
      have within := buffer.wpos_le
      refine congrArg (List.drop _) ((List.take_append_of_le_length ?_).trans ?_)
      · exact (Nat.le_min.mpr ⟨enough, within⟩).trans_eq List.length_take.symm
      · rw [List.take_take, Nat.min_eq_left enough]
  · cases done

theorem active_call {input : Call} {next : MessageBuffer} (done : buffer.call input = some next)
    : next.active = input.queue buffer.active := by
  cases input with
  | write data =>
      by_cases enough : data.length ≤ buffer.getRemainingSpace
      · obtain ⟨_, same, active, -⟩ := write_eq enough
        cases same.symm.trans done
        exact active
      · cases (dif_neg enough).symm.trans done
  | readCompleted bytes =>
      by_cases enough : bytes ≤ buffer.getActiveSize
      · obtain ⟨_, same, active, -⟩ := readCompleted_eq enough
        cases same.symm.trans done
        exact active
      · cases (dif_neg enough).symm.trans done
  | normalize =>
      cases done
      exact active_normalize
  | ensureFreeSpace =>
      cases done
      exact active_ensureFreeSpace
  | resize bytes => exact active_resize done
  | reset =>
      cases done
      exact active_eq_nil.mpr rfl

/-- After any calls that stay inside its storage, a buffer holds what the queue does, in the same
order, however it was moved and grown in between.
-/
theorem buffer_is_queue (size : Nat) {calls : List Call} {last : MessageBuffer}
    (done : calls.foldlM call (sized size) = some last)
    : last.active = calls.foldl Call.queue [] := by
  have start : (sized size).active = [] := active_eq_nil.mpr rfl
  rw [← start]
  generalize sized size = buffer at done
  induction calls generalizing buffer with
  | nil =>
      cases done
      rfl
  | cons input rest ih =>
      rw [List.foldlM_cons] at done
      obtain ⟨next, first, later⟩ := Option.bind_eq_some_iff.mp done
      rw [ih next later, active_call first]
      rfl

theorem buffer_is_queue_applied
    : ([.write [1, 2, 3], .readCompleted 2, .normalize, .write [4, 5, 6], .ensureFreeSpace,
          .write [7]].foldlM call (sized 4)).map active
        = some [3, 4, 5, 6, 7] := by
  obtain ⟨last, run⟩ : ∃ last, [.write [1, 2, 3], .readCompleted 2, .normalize, .write [4, 5, 6],
      .ensureFreeSpace, .write [7]].foldlM call (sized 4) = some last := ⟨_, rfl⟩
  rw [run]
  exact congrArg some (buffer_is_queue 4 run)

end MessageBuffer

end WarheadCore.Sockets
