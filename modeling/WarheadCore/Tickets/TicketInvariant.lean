import Mathlib.Data.List.Perm.Subperm
import WarheadCore.Foundation.IdPools
import WarheadCore.Tickets.TicketMgr

/-! The invariant of the tickets, and the changes that keep it: a ticket changes and is saved, is
closed and counted down, is added or removed, all are reset, or the rows are read again.
-/

namespace WarheadCore.Tickets

open Foundation

-- The invariant

def TicketMgr.openTickets (mgr : TicketMgr) : Nat :=
  mgr.ticketList.count (fun ticket => !ticket.isClosed)

structure Tracked (mgr : TicketMgr) : Prop where
  counted : mgr.openTicketCount = mgr.openTickets
  oneOpen : ∀ id id' ticket ticket', mgr.getTicket id = some ticket
    → mgr.getTicket id' = some ticket' → ticket.isClosed = false → ticket'.isClosed = false
    → ticket.playerGuid = ticket'.playerGuid → id = id'
  rows : ∀ id, mgr.rows.get? id = (mgr.getTicket id).map GmTicket.toRow
  fits : ∀ id ticket, mgr.getTicket id = some ticket → ticket.fits = true
  issued : ∀ id ticket, mgr.getTicket id = some ticket → 0 < id ∧ id ≤ mgr.lastTicketId
  small : mgr.lastTicketId < 2 ^ 32

/-- Tickets under distinct ids up to a bound are no more than the bound. -/
theorem count_le_of_issued {tickets : Table Nat GmTicket} {last : Nat}
    (issued : ∀ id ticket, tickets.get? id = some ticket → 0 < id ∧ id ≤ last)
    (wanted : GmTicket → Bool)
    : tickets.count wanted ≤ last := by
  have within : tickets.keys ⊆ (List.range last).map Nat.succ := by
    intro id member
    obtain ⟨ticket, listed⟩ := Option.isSome_iff_exists.mp (Table.mem_keys_iff.mp member)
    obtain ⟨positive, bounded⟩ := issued id ticket listed
    exact List.mem_map.mpr ⟨id - 1, List.mem_range.mpr (by omega), by omega⟩
  have length := (List.subperm_of_subset tickets.keys_nodup within).length_le
  have counted : tickets.count wanted ≤ tickets.keys.length := by
    unfold Table.count Table.values AList.keys List.keys
    rw [List.length_map]
    exact List.countP_le_length.trans_eq (List.length_map _)
  simpa using counted.trans length

theorem Tracked.openTickets_lt {mgr : TicketMgr} (tracked : Tracked mgr)
    : mgr.openTickets < 2 ^ 32 :=
  lt_of_le_of_lt (count_le_of_issued tracked.issued _) tracked.small

-- Lookups

section Lookups

variable (mgr : TicketMgr)

theorem getTicketByPlayer_some {player : UInt32} {entry : (_ : Nat) × GmTicket}
    (h : mgr.getTicketByPlayer player = some entry)
    : mgr.getTicket entry.1 = some entry.2 ∧ entry.2.playerGuid = player
        ∧ entry.2.isClosed = false := by
  unfold TicketMgr.getTicketByPlayer at h
  obtain ⟨member, wanted⟩ := List.mem_filter.mp (List.argmin_mem h)
  obtain ⟨owner, opened⟩ : entry.2.playerGuid = player ∧ entry.2.isClosed = false := by
    simpa using wanted
  exact ⟨Table.get?_eq_some_iff.mpr member, owner, opened⟩

theorem getTicketByPlayer_none {player : UInt32} (h : mgr.getTicketByPlayer player = none)
    {id : Nat} {ticket : GmTicket} (listed : mgr.getTicket id = some ticket)
    (opened : ticket.isClosed = false)
    : ticket.playerGuid ≠ player := by
  intro owner
  unfold TicketMgr.getTicketByPlayer at h
  have member : (⟨id, ticket⟩ : (_ : Nat) × GmTicket) ∈ mgr.ticketList.entries.filter (fun entry =>
      entry.2.playerGuid = player && !entry.2.isClosed) :=
    List.mem_filter.mpr ⟨Table.get?_eq_some_iff.mp listed, by simp [owner, opened]⟩
  rw [List.argmin_eq_none.mp h] at member
  exact absurd member List.not_mem_nil

end Lookups

-- Changes of one ticket

section Changes

variable {mgr : TicketMgr}

/-- The manager once a listed ticket has changed, is saved and the count is set. -/
def TicketMgr.changed (mgr : TicketMgr) (id : Nat) (ticket : GmTicket) (count : Nat) : TicketMgr :=
  { mgr with
    ticketList := mgr.ticketList.modify id (fun _ => ticket),
    openTicketCount := count,
    rows := mgr.rows.put id ticket.toRow }

theorem change_eq (id : Nat) {ticket : GmTicket} (fits : ticket.fits = true)
    : mgr.change id ticket = mgr.changed id ticket mgr.openTicketCount := by
  unfold TicketMgr.change TicketMgr.saveToDB
  rw [if_pos fits]
  rfl

theorem closeTicket_eq {id : Nat} {ticket : GmTicket} (listed : mgr.getTicket id = some ticket)
    (fits : ticket.fits = true) (source : UInt32)
    : mgr.closeTicket id source
      = mgr.changed id (ticket.setClosedBy source) (mgr.countDown source) := by
  have saved : (ticket.setClosedBy source).fits = true := fits
  unfold TicketMgr.closeTicket TicketMgr.saveToDB
  rw [listed]
  dsimp only
  rw [if_pos saved]
  rfl

theorem resolveAndCloseTicket_eq {id : Nat} {ticket : GmTicket}
    (listed : mgr.getTicket id = some ticket) (fits : ticket.fits = true) (source : UInt32)
    : mgr.resolveAndCloseTicket id source
      = mgr.changed id ((ticket.setClosedBy source).setResolvedBy source)
          (mgr.countDown source) := by
  have saved : ((ticket.setClosedBy source).setResolvedBy source).fits = true := fits
  unfold TicketMgr.resolveAndCloseTicket TicketMgr.saveToDB
  rw [listed]
  dsimp only
  rw [if_pos saved]
  rfl

theorem getTicket_changed {id : Nat} {old : GmTicket} (listed : mgr.getTicket id = some old)
    (ticket : GmTicket) (count other : Nat)
    : (mgr.changed id ticket count).getTicket other
      = if other = id then some ticket else mgr.getTicket other := by
  unfold TicketMgr.getTicket TicketMgr.changed at *
  dsimp only
  rw [Table.get?_modify]
  split
  · rename_i here
    rw [here, listed, Option.map_some]
  · rfl

theorem openTickets_changed {id : Nat} {old : GmTicket} (listed : mgr.getTicket id = some old)
    (ticket : GmTicket) (count : Nat)
    : (mgr.changed id ticket count).openTickets + (if old.isClosed then 0 else 1)
      = mgr.openTickets + if ticket.isClosed then 0 else 1 := by
  have counted := Table.count_modify listed (fun _ => ticket) (fun ticket => !ticket.isClosed)
  unfold TicketMgr.openTickets TicketMgr.changed
  dsimp only
  cases before : old.isClosed <;> cases after : ticket.isClosed <;>
    simpa [before, after] using counted

/-- A ticket may change and be saved, when the count follows. -/
theorem Tracked.changed (tracked : Tracked mgr) {id count : Nat} {old ticket : GmTicket}
    (listed : mgr.getTicket id = some old) (owner : ticket.playerGuid = old.playerGuid)
    (reopened : ticket.isClosed = false → old.isClosed = false) (fits : ticket.fits = true)
    (counted : count + (if old.isClosed then 0 else 1)
      = mgr.openTickets + if ticket.isClosed then 0 else 1)
    : Tracked (mgr.changed id ticket count) := by
  have lookup := getTicket_changed listed ticket count
  have before {other : Nat} {now : GmTicket}
      (found : (mgr.changed id ticket count).getTicket other = some now)
      : ∃ was, mgr.getTicket other = some was ∧ now.playerGuid = was.playerGuid
          ∧ (now.isClosed = false → was.isClosed = false) ∧ now.fits = true := by
    rw [lookup] at found
    split at found
    · rename_i here
      obtain rfl := Option.some.inj found
      exact ⟨old, here ▸ listed, owner, reopened, fits⟩
    · exact ⟨now, found, rfl, fun opened => opened, tracked.fits _ _ found⟩
  constructor
  case counted =>
    have changes := openTickets_changed listed ticket count
    change count = _
    omega
  case oneOpen =>
    intro first second now now' found found' opened opened' same
    obtain ⟨was, there, sameOwner, wasOpen, -⟩ := before found
    obtain ⟨was', there', sameOwner', wasOpen', -⟩ := before found'
    exact tracked.oneOpen _ _ _ _ there there' (wasOpen opened) (wasOpen' opened')
      (sameOwner.symm.trans (same.trans sameOwner'))
  case rows =>
    intro other
    change (mgr.rows.put id ticket.toRow).get? other = _
    rw [lookup, Table.get?_put]
    split
    · rfl
    · exact tracked.rows other
  case fits => exact fun other now found => (before found).choose_spec.2.2.2
  case issued =>
    intro other now found
    obtain ⟨was, there, -⟩ := before found
    exact tracked.issued _ _ there
  case small => exact tracked.small

/-- A ticket that stays open or closed may change and be saved. -/
theorem Tracked.change (tracked : Tracked mgr) {id : Nat} {old ticket : GmTicket}
    (listed : mgr.getTicket id = some old) (owner : ticket.playerGuid = old.playerGuid)
    (same : ticket.type = old.type) (fits : ticket.fits = true)
    : Tracked (mgr.change id ticket) := by
  have state : ticket.isClosed = old.isClosed := by
    unfold GmTicket.isClosed
    rw [same]
  rw [change_eq id fits]
  refine tracked.changed listed owner (fun opened => state ▸ opened) fits ?_
  rw [tracked.counted, state]

theorem isClosed_of_typeClosed {ticket : GmTicket} (closed : ticket.type = .typeClosed)
    : ticket.isClosed = true := by
  unfold GmTicket.isClosed
  rw [closed]
  rfl

/-- An open ticket that someone closes is counted down. -/
theorem Tracked.counted_down (tracked : Tracked mgr) {id : Nat} {old ticket : GmTicket}
    (listed : mgr.getTicket id = some old) (opened : old.isClosed = false)
    (owner : ticket.playerGuid = old.playerGuid) (closed : ticket.type = .typeClosed)
    (fits : ticket.fits = true) {source : UInt32} (closer : source ≠ 0)
    : Tracked (mgr.changed id ticket (mgr.countDown source)) := by
  have shut := isClosed_of_typeClosed closed
  refine tracked.changed listed owner (fun still => by simp [shut] at still) fits ?_
  have changes := openTickets_changed listed ticket 0
  have range := tracked.openTickets_lt
  rw [opened, shut] at *
  unfold TicketMgr.countDown
  rw [if_pos closer, tracked.counted]
  have exact : toUInt32 ((mgr.openTickets : Int) - 1) = mgr.openTickets - 1 := by
    unfold toUInt32
    simp at changes
    omega
  rw [exact]
  simp at changes ⊢
  omega

/-- A player closes an own ticket. -/
theorem Tracked.closeTicket (tracked : Tracked mgr) {id : Nat} {old : GmTicket}
    (listed : mgr.getTicket id = some old) (opened : old.isClosed = false) (player : PlayerGuid)
    : Tracked (mgr.closeTicket id player.1) := by
  have fits := tracked.fits _ _ listed
  have owner : (old.setClosedBy player.1).playerGuid = old.playerGuid := rfl
  rw [closeTicket_eq listed fits]
  exact tracked.counted_down listed opened owner rfl fits player.2

/-- A game master closes a ticket. -/
theorem Tracked.resolveAndCloseTicket (tracked : Tracked mgr) {id : Nat} {old : GmTicket}
    (listed : mgr.getTicket id = some old) (opened : old.isClosed = false) (player : PlayerGuid)
    : Tracked (mgr.resolveAndCloseTicket id player.1) := by
  have fits := tracked.fits _ _ listed
  have owner
      : ((old.setClosedBy player.1).setResolvedBy player.1).playerGuid = old.playerGuid := rfl
  rw [resolveAndCloseTicket_eq listed fits]
  exact tracked.counted_down listed opened owner rfl fits player.2

-- New and removed tickets

/-- The next id is above every listed one while the ids do not wrap. -/
theorem Tracked.fresh (tracked : Tracked mgr) (below : mgr.lastTicketId + 1 < 2 ^ 32)
    : mgr.generateTicketId = mgr.lastTicketId + 1
        ∧ mgr.getTicket mgr.generateTicketId = none := by
  have next : mgr.generateTicketId = mgr.lastTicketId + 1 := toUInt32_of_lt (by omega)
  refine ⟨next, ?_⟩
  cases listed : mgr.getTicket mgr.generateTicketId with
  | none => rfl
  | some ticket =>
      have issued := (tracked.issued _ _ listed).2
      omega

/-- A new open ticket of a player without one. -/
theorem Tracked.add (tracked : Tracked mgr) (below : mgr.lastTicketId + 1 < 2 ^ 32)
    {ticket : GmTicket} (opened : ticket.isClosed = false) (fits : ticket.fits = true)
    (single : ∀ id other, mgr.getTicket id = some other → other.isClosed = false
      → other.playerGuid ≠ ticket.playerGuid)
    : Tracked ({ mgr with lastTicketId := mgr.generateTicketId }.addTicket mgr.generateTicketId
          ticket) := by
  obtain ⟨next, unlisted⟩ := tracked.fresh below
  have bounded := count_le_of_issued tracked.issued (fun ticket => !ticket.isClosed)
  have added
      : { mgr with lastTicketId := mgr.generateTicketId }.addTicket mgr.generateTicketId ticket
      = { mgr with
          ticketList := mgr.ticketList.put (mgr.lastTicketId + 1) ticket,
          lastTicketId := mgr.lastTicketId + 1,
          openTicketCount := mgr.openTicketCount + 1,
          rows := mgr.rows.put (mgr.lastTicketId + 1) ticket.toRow } := by
    have exact : toUInt32 (mgr.openTicketCount + 1 : Nat) = mgr.openTicketCount + 1 := by
      rw [tracked.counted]
      unfold TicketMgr.openTickets
      exact toUInt32_of_lt (by omega)
    unfold TicketMgr.addTicket TicketMgr.saveToDB
    rw [if_pos fits, next, opened, exact]
    rfl
  rw [next] at unlisted
  rw [added]
  have lookup (id : Nat) : (mgr.ticketList.put (mgr.lastTicketId + 1) ticket).get? id
      = if id = mgr.lastTicketId + 1 then some ticket else mgr.getTicket id :=
    Table.get?_put _ _ _ _
  constructor
  case counted =>
    have counts := Table.count_put unlisted ticket (fun ticket => !ticket.isClosed)
    rw [opened] at counts
    change mgr.openTicketCount + 1 = _
    rw [tracked.counted]
    exact counts.symm
  case oneOpen =>
    intro id id' first second found found' firstOpen secondOpen same
    change (mgr.ticketList.put _ _).get? id = some first at found
    change (mgr.ticketList.put _ _).get? id' = some second at found'
    rw [lookup] at found found'
    split at found <;> split at found'
    · omega
    · obtain rfl := Option.some.inj found
      exact absurd same.symm (single _ _ found' secondOpen)
    · obtain rfl := Option.some.inj found'
      exact absurd same (single _ _ found firstOpen)
    · exact tracked.oneOpen _ _ _ _ found found' firstOpen secondOpen same
  case rows =>
    intro id
    change (mgr.rows.put _ _).get? id = ((mgr.ticketList.put _ _).get? id).map _
    rw [lookup, Table.get?_put]
    split
    · rfl
    · exact tracked.rows id
  case fits =>
    intro id other found
    change (mgr.ticketList.put _ _).get? id = some other at found
    rw [lookup] at found
    split at found
    · obtain rfl := Option.some.inj found
      exact fits
    · exact tracked.fits _ _ found
  case issued =>
    intro id other found
    change (mgr.ticketList.put _ _).get? id = some other at found
    rw [lookup] at found
    change 0 < id ∧ id ≤ mgr.lastTicketId + 1
    split at found
    · omega
    · have old := tracked.issued _ _ found
      omega
  case small => exact below

theorem removeTicket_eq {id : Nat} {ticket : GmTicket} (listed : mgr.getTicket id = some ticket)
    : mgr.removeTicket id
      = { mgr with rows := mgr.rows.remove id, ticketList := mgr.ticketList.remove id } := by
  unfold TicketMgr.removeTicket
  rw [listed]

/-- A closed ticket is removed with its row. -/
theorem Tracked.removeTicket (tracked : Tracked mgr) {id : Nat} {ticket : GmTicket}
    (listed : mgr.getTicket id = some ticket) (closed : ticket.isClosed = true)
    : Tracked (mgr.removeTicket id) := by
  rw [removeTicket_eq listed]
  have lookup (other : Nat) : (mgr.ticketList.remove id).get? other
      = if other = id then none else mgr.getTicket other := Table.get?_remove _ _ _
  have before {other : Nat} {now : GmTicket}
      (found : (mgr.ticketList.remove id).get? other = some now)
      : mgr.getTicket other = some now := by
    rw [lookup] at found
    split at found
    · simp at found
    · exact found
  constructor
  case counted =>
    have counts := Table.count_remove listed (fun ticket => !ticket.isClosed)
    rw [closed] at counts
    exact tracked.counted.trans counts.symm
  case oneOpen =>
    exact fun first second now now' found found' =>
      tracked.oneOpen _ _ _ _ (before found) (before found')
  case rows =>
    intro other
    change (mgr.rows.remove id).get? other = ((mgr.ticketList.remove id).get? other).map _
    rw [lookup, Table.get?_remove]
    split
    · rfl
    · exact tracked.rows other
  case fits => exact fun other now found => tracked.fits _ _ (before found)
  case issued => exact fun other now found => tracked.issued _ _ (before found)
  case small => exact tracked.small

-- Resets

theorem openTickets_pos_iff
    : mgr.openTickets ≠ 0
      ↔ ∃ id ticket, mgr.getTicket id = some ticket ∧ ticket.isClosed = false := by
  unfold TicketMgr.openTickets Table.count
  rw [← Nat.pos_iff_ne_zero, List.countP_pos_iff]
  constructor
  · rintro ⟨ticket, member, opened⟩
    obtain ⟨id, listed⟩ := Table.mem_values_iff.mp member
    exact ⟨id, ticket, listed, by simpa using opened⟩
  · rintro ⟨id, ticket, listed, opened⟩
    exact ⟨ticket, Table.mem_values_iff.mpr ⟨id, listed⟩, by simp [opened]⟩

/-- Removing tickets leaves the others and the counters alone. -/
theorem foldl_removeTicket (ids : List Nat) (mgr : TicketMgr)
    : (∀ id, (ids.foldl TicketMgr.removeTicket mgr).getTicket id
          = if id ∈ ids then none else mgr.getTicket id)
        ∧ (ids.foldl TicketMgr.removeTicket mgr).openTicketCount = mgr.openTicketCount := by
  induction ids generalizing mgr with
  | nil => exact ⟨fun id => (if_neg List.not_mem_nil).symm, rfl⟩
  | cons first rest ih =>
      have once (id : Nat) : (mgr.removeTicket first).getTicket id
          = if id = first then none else mgr.getTicket id := by
        cases listed : mgr.getTicket first with
        | none =>
            have same : mgr.removeTicket first = mgr := by
              unfold TicketMgr.removeTicket
              rw [listed]
            rw [same]
            split
            · rename_i here
              rw [here, listed]
            · rfl
        | some ticket =>
            rw [removeTicket_eq listed]
            exact Table.get?_remove _ _ _
      have count : (mgr.removeTicket first).openTicketCount = mgr.openTicketCount := by
        unfold TicketMgr.removeTicket
        split <;> rfl
      obtain ⟨lookup, counts⟩ := ih (mgr.removeTicket first)
      refine ⟨fun id => ?_, counts.trans count⟩
      rw [List.foldl_cons, lookup, once]
      by_cases here : id = first <;> simp [here]

/-- A reset that is not refused leaves no ticket. -/
theorem Tracked.resetTickets (tracked : Tracked mgr) (none_open : mgr.openTicketCount = 0)
    : Tracked mgr.resetTickets := by
  have closed {id : Nat} {ticket : GmTicket} (listed : mgr.getTicket id = some ticket)
      : ticket.isClosed = true := by
    by_contra opened
    exact openTickets_pos_iff.mpr ⟨id, ticket, listed, by simpa using opened⟩
      (tracked.counted.symm.trans none_open)
  obtain ⟨lookup, counts⟩ := foldl_removeTicket
    ((mgr.ticketList.entries.filter (fun entry => entry.2.isClosed)).map Sigma.fst) mgr
  have gone (id : Nat) : mgr.resetTickets.getTicket id = none := by
    refine (lookup id).trans ?_
    split
    · rfl
    · rename_i absent
      cases listed : mgr.getTicket id with
      | none => rfl
      | some ticket =>
          have member : (⟨id, ticket⟩ : (_ : Nat) × GmTicket)
              ∈ mgr.ticketList.entries.filter (fun entry => entry.2.isClosed) :=
            List.mem_filter.mpr ⟨Table.get?_eq_some_iff.mp listed, closed listed⟩
          exact absurd (List.mem_map_of_mem member) absent
  have nothing {id : Nat} {ticket : GmTicket}
      (listed : mgr.resetTickets.getTicket id = some ticket)
      : False := by
    rw [gone id] at listed
    simp at listed
  constructor
  case counted =>
    have few := @count_le_of_issued mgr.resetTickets.ticketList 0
      (fun _ _ listed => (nothing listed).elim) (fun ticket => !ticket.isClosed)
    exact (counts.trans none_open).trans (Nat.le_zero.mp few).symm
  case oneOpen => exact fun _ _ _ _ listed => (nothing listed).elim
  case rows =>
    intro id
    rw [gone]
    rfl
  case fits => exact fun _ _ listed => (nothing listed).elim
  case issued => exact fun _ _ listed => (nothing listed).elim
  case small => exact Nat.two_pow_pos 32

-- Restarts

theorem foldl_max_le {ids : List Nat} {start bound : Nat} (first : start ≤ bound)
    (all : ∀ id ∈ ids, id ≤ bound)
    : ids.foldl max start ≤ bound := by
  induction ids generalizing start with
  | nil => exact first
  | cons head rest ih =>
      obtain ⟨here, others⟩ := List.forall_mem_cons.mp all
      exact ih (Nat.max_le.mpr ⟨first, here⟩) others

/-- The loop over the rows counts the open tickets as long as they are fewer than 2^32. -/
theorem foldl_count (tickets : List GmTicket) (count : Nat)
    (small : count + tickets.countP (fun ticket => !ticket.isClosed) < 2 ^ 32)
    : tickets.foldl (fun count ticket =>
          if ticket.isClosed then count else toUInt32 (count + 1 : Nat)) count
      = count + tickets.countP (fun ticket => !ticket.isClosed) := by
  induction tickets generalizing count with
  | nil => rfl
  | cons first rest ih =>
      rw [List.countP_cons] at small ⊢
      rw [List.foldl_cons]
      cases closed : first.isClosed with
      | true =>
          simp only [closed, Bool.not_true, if_true] at small ⊢
          exact ih count small
      | false =>
          simp only [closed, Bool.not_false, if_true, Bool.false_eq_true, if_false] at small ⊢
          have next : toUInt32 (count + 1 : Nat) = count + 1 := toUInt32_of_lt (by omega)
          rw [next, ih (count + 1) (by omega)]
          omega

/-- Rows from which the manager starts: no id is 0, no player has two open tickets and the texts fit
their columns.
-/
structure SoundRows (rows : Table Nat GmTicketRow) : Prop where
  ids : ∀ id row, rows.get? id = some row → 0 < id ∧ id < 2 ^ 32
  oneOpen : ∀ id id' row row', rows.get? id = some row → rows.get? id' = some row'
    → row.type = .typeOpen → row'.type = .typeOpen → row.playerGuid = row'.playerGuid → id = id'
  fits : ∀ id row, rows.get? id = some row → row.loadFromDB.fits = true

/-- A manager that has read its rows is consistent with them. -/
theorem tracked_restart (rows : SoundRows mgr.rows) (allowTickets : Bool)
    : Tracked (mgr.restart allowTickets).mgr := by
  have lookup (id : Nat) : (mgr.restart allowTickets).mgr.getTicket id
      = (mgr.rows.get? id).map GmTicketRow.loadFromDB := Table.get?_mapValues _ _ _
  have row_of {id : Nat} {ticket : GmTicket}
      (listed : (mgr.restart allowTickets).mgr.getTicket id = some ticket)
      : ∃ row, mgr.rows.get? id = some row ∧ row.loadFromDB = ticket := by
    rw [lookup] at listed
    exact Option.map_eq_some_iff.mp listed
  have issued (id : Nat) (ticket : GmTicket)
      (listed : (mgr.restart allowTickets).mgr.getTicket id = some ticket)
      : 0 < id ∧ id ≤ (mgr.restart allowTickets).mgr.lastTicketId := by
    obtain ⟨row, stored, -⟩ := row_of listed
    exact ⟨(rows.ids id row stored).1,
      IdPool.le_foldl_max (.inr (Table.mem_keys_iff.mpr (Option.isSome_of_eq_some listed)))⟩
  have small : (mgr.restart allowTickets).mgr.lastTicketId < 2 ^ 32 := by
    refine Nat.lt_of_le_pred (by decide) (foldl_max_le (Nat.zero_le _) (fun id member => ?_))
    obtain ⟨ticket, listed⟩ := Option.isSome_iff_exists.mp (Table.mem_keys_iff.mp member)
    obtain ⟨row, stored, -⟩ := row_of listed
    exact Nat.le_pred_of_lt (rows.ids id row stored).2
  have opened_iff (row : GmTicketRow) : row.loadFromDB.isClosed = false ↔ row.type = .typeOpen := by
    unfold GmTicket.isClosed GmTicketRow.loadFromDB
    exact decide_eq_false_iff_not.trans not_not
  constructor
  case counted =>
    have bounded := count_le_of_issued issued (fun ticket => !ticket.isClosed)
    unfold Table.count at bounded
    refine (foldl_count (mgr.restart allowTickets).mgr.ticketList.values 0 (by omega)).trans ?_
    exact Nat.zero_add _
  case oneOpen =>
    intro id id' first second listed listed' firstOpen secondOpen same
    obtain ⟨row, stored, rfl⟩ := row_of listed
    obtain ⟨row', stored', rfl⟩ := row_of listed'
    exact rows.oneOpen _ _ _ _ stored stored' ((opened_iff row).mp firstOpen)
      ((opened_iff row').mp secondOpen) same
  case rows =>
    intro id
    change mgr.rows.get? id = _
    rw [lookup, Option.map_map]
    cases mgr.rows.get? id <;> rfl
  case fits =>
    intro id ticket listed
    obtain ⟨row, stored, rfl⟩ := row_of listed
    exact rows.fits _ _ stored
  case issued => exact issued
  case small => exact small

/-- The rows behind a consistent manager are sound. -/
theorem Tracked.soundRows (tracked : Tracked mgr)
    : SoundRows mgr.rows := by
  have ticket_of {id : Nat} {row : GmTicketRow} (stored : mgr.rows.get? id = some row)
      : ∃ ticket, mgr.getTicket id = some ticket ∧ ticket.toRow = row := by
    rw [tracked.rows] at stored
    exact Option.map_eq_some_iff.mp stored
  constructor
  case ids =>
    intro id row stored
    obtain ⟨ticket, listed, -⟩ := ticket_of stored
    have issued := tracked.issued _ _ listed
    exact ⟨issued.1, lt_of_le_of_lt issued.2 tracked.small⟩
  case oneOpen =>
    intro id id' row row' stored stored' firstOpen secondOpen same
    obtain ⟨ticket, listed, rfl⟩ := ticket_of stored
    obtain ⟨ticket', listed', rfl⟩ := ticket_of stored'
    have opened : ticket.isClosed = false := by
      simpa [GmTicket.isClosed, GmTicket.toRow] using firstOpen
    have opened' : ticket'.isClosed = false := by
      simpa [GmTicket.isClosed, GmTicket.toRow] using secondOpen
    exact tracked.oneOpen _ _ _ _ listed listed' opened opened' same
  case fits =>
    intro id row stored
    obtain ⟨ticket, listed, rfl⟩ := ticket_of stored
    exact tracked.fits _ _ listed

end Changes

end WarheadCore.Tickets
