import WarheadCore.Foundation.Runs
import WarheadCore.Tickets.TicketInvariant

/-! What holds of the tickets after any requests: the count of open tickets, one open ticket for
each player, and the rows. A ticket that the console closes is not counted down, and an escalation
is not saved; the law holds of the runs without these.
-/

namespace WarheadCore.Tickets

open Foundation Foundation.Runs

-- The law

structure Consistent (mgr : TicketMgr) : Prop where
  counted : mgr.openTicketCount = mgr.openTickets
  oneOpen : ∀ id id' ticket ticket', mgr.getTicket id = some ticket
    → mgr.getTicket id' = some ticket' → ticket.isClosed = false → ticket'.isClosed = false
    → ticket.playerGuid = ticket'.playerGuid → id = id'
  persisted : ∀ id ticket, mgr.getTicket id = some ticket → mgr.rows.get? id = some ticket.toRow

/-- A new ticket takes an id that is not listed, and a reset is refused while a ticket is open. -/
structure Lawful (mgr : TicketMgr) (request : TicketRequest) : Prop where
  fresh : ∀ levelReq level player packet, request = .create levelReq level player packet
    → (handle mgr request).answers = [.createSuccess]
    → mgr.getTicket mgr.generateTicketId = none
      ∧ ∃ ticket, (step mgr request).getTicket mgr.generateTicketId = some ticket
          ∧ ticket.playerGuid = player.1 ∧ ticket.isClosed = false
  refused : request = .reset
    → ((handle mgr request).answers = [.ticketPending]
      ↔ ∃ id ticket, mgr.getTicket id = some ticket ∧ ticket.isClosed = false)
  unchanged : request = .reset → (handle mgr request).answers = [.ticketPending]
    → step mgr request = mgr

/-- What a request must not do: wrap the ids, save a text that its column refuses, close a ticket
from the console, or escalate one.
-/
def Safe (mgr : TicketMgr) : TicketRequest → Prop
  | .create levelReq level player packet =>
      mgr.status = true → levelReq ≤ level → packet.readable = true
        → (∀ entry, mgr.getTicketByPlayer player.1 = some entry → entry.2.completed = true)
        → mgr.lastTicketId + 1 < 2 ^ 32 ∧ packet.message.length ≤ maxTextBytes
  | .update player message valid =>
      valid = true → (mgr.getTicketByPlayer player.1).isSome = true
        → message.length ≤ maxTextBytes
  | .close none ticketId => ∀ ticket, mgr.getTicket ticketId = some ticket
      → ticket.isClosed = true ∨ ticket.completed = true
  | .comment issuer ticketId comment => ∀ ticket, mgr.getTicket ticketId = some ticket
      → TicketMgr.barred issuer ticket = true ∨ comment.length ≤ maxTextBytes
  | .complete issuer ticketId response => ∀ ticket, mgr.getTicket ticketId = some ticket
      → ticket.isClosed = true ∨ ticket.completed = true ∨ TicketMgr.barred issuer ticket = true
        ∨ (ticket.response ++ response).length ≤ maxTextBytes
  | .escalate ticketId => ∀ ticket, mgr.getTicket ticketId = some ticket
      → ticket.isClosed = true ∨ ticket.completed = true ∨ ticket.escalatedStatus ≠ .unassigned
  | .responseAppend issuer ticketId response newLine => ∀ ticket,
      mgr.getTicket ticketId = some ticket
      → ticket.isClosed = true ∨ TicketMgr.barred issuer ticket = true
        ∨ (ticket.response ++ (response ++ if newLine then [10] else [])).length ≤ maxTextBytes
  | _ => True

theorem Tracked.consistent {mgr : TicketMgr} (tracked : Tracked mgr)
    : Consistent mgr where
  counted := tracked.counted
  oneOpen := tracked.oneOpen
  persisted := by
    intro id ticket listed
    rw [tracked.rows, listed, Option.map_some]

-- Opcodes

section Handlers

variable {mgr : TicketMgr}

/-- A ticket fits when the only text that changed does. -/
theorem fits_iff (ticket : GmTicket)
    : ticket.fits = true ↔ ticket.message.length ≤ maxTextBytes
        ∧ ticket.comment.length ≤ maxTextBytes ∧ ticket.response.length ≤ maxTextBytes := by
  unfold GmTicket.fits
  rw [Bool.and_eq_true, Bool.and_eq_true, decide_eq_true_iff, decide_eq_true_iff,
    decide_eq_true_iff, and_assoc]

/-- The end of a creation, for a player without an open ticket. -/
theorem Tracked.createTicket (tracked : Tracked mgr) {player : PlayerGuid} {packet : CreatePacket}
    (single : ∀ id other, mgr.getTicket id = some other → other.isClosed = false
      → other.playerGuid ≠ player.1)
    (safe : packet.readable = true
      → mgr.lastTicketId + 1 < 2 ^ 32 ∧ packet.message.length ≤ maxTextBytes)
    : Tracked (mgr.createTicket player packet).mgr := by
  unfold TicketMgr.createTicket
  cases readable : packet.readable with
  | false => exact tracked
  | true =>
      obtain ⟨below, short⟩ := safe readable
      exact tracked.add below rfl ((fits_iff _).mpr ⟨short, Nat.zero_le _, Nat.zero_le _⟩) single

/-- Once the completed ticket of a player is closed, the player has no open ticket. -/
theorem Tracked.single_of_closed (tracked : Tracked mgr) {player : PlayerGuid}
    {entry : (_ : Nat) × GmTicket} (found : mgr.getTicketByPlayer player.1 = some entry)
    : ∀ id other, (mgr.closeTicket entry.1 player.1).getTicket id = some other
        → other.isClosed = false → other.playerGuid ≠ player.1 := by
  obtain ⟨listed, owner, opened⟩ := getTicketByPlayer_some mgr found
  intro id other now otherOpen same
  rw [closeTicket_eq listed (tracked.fits _ _ listed), getTicket_changed listed] at now
  split at now
  · obtain rfl := Option.some.inj now
    rw [isClosed_of_typeClosed rfl] at otherOpen
    simp at otherOpen
  · rename_i elsewhere
    exact elsewhere (tracked.oneOpen _ _ _ _ now listed otherOpen opened (same.trans owner.symm))

theorem lastTicketId_closeTicket (mgr : TicketMgr) (id : Nat) (source : UInt32)
    : (mgr.closeTicket id source).lastTicketId = mgr.lastTicketId := by
  unfold TicketMgr.closeTicket
  split
  · rfl
  · unfold TicketMgr.saveToDB
    split <;> rfl

theorem Tracked.handleCreate (tracked : Tracked mgr) {levelReq level : Nat} {player : PlayerGuid}
    {packet : CreatePacket} (safe : Safe mgr (.create levelReq level player packet))
    : Tracked (mgr.handleGMTicketCreateOpcode levelReq level player packet).mgr := by
  unfold TicketMgr.handleGMTicketCreateOpcode
  cases status : mgr.status with
  | false => exact tracked
  | true =>
      by_cases low : level < levelReq
      · rw [if_pos low]
        exact tracked
      · rw [if_neg low]
        cases found : mgr.getTicketByPlayer player.1 with
        | none =>
            refine tracked.createTicket (fun id other => getTicketByPlayer_none mgr found)
              (fun readable => safe status (not_lt.mp low) readable ?_)
            simp [found]
        | some entry =>
            obtain ⟨listed, owner, opened⟩ := getTicketByPlayer_some mgr found
            rw [if_neg (by decide)]
            by_cases completed : entry.2.completed = true
            · dsimp only
              rw [if_pos completed]
              refine (tracked.closeTicket listed opened player).createTicket
                (tracked.single_of_closed found) (fun readable => ?_)
              rw [lastTicketId_closeTicket]
              refine safe status (not_lt.mp low) readable (fun other same => ?_)
              obtain rfl := Option.some.inj (found.symm.trans same)
              exact completed
            · dsimp only
              rw [if_neg completed]
              exact tracked

theorem Tracked.handleUpdate (tracked : Tracked mgr) {player : PlayerGuid} {message : Text}
    {valid : Bool} (safe : Safe mgr (.update player message valid))
    : Tracked (mgr.handleGMTicketUpdateOpcode player message valid).mgr := by
  unfold TicketMgr.handleGMTicketUpdateOpcode
  cases valid with
  | false => exact tracked
  | true =>
      cases found : mgr.getTicketByPlayer player.1 with
      | none => exact tracked
      | some entry =>
          obtain ⟨listed, -, -⟩ := getTicketByPlayer_some mgr found
          have short := safe rfl (Option.isSome_of_eq_some found)
          have fits := (fits_iff _).mp (tracked.fits _ _ listed)
          exact tracked.change listed rfl rfl ((fits_iff _).mpr ⟨short, fits.2⟩)

theorem Tracked.handleDelete (tracked : Tracked mgr) (player : PlayerGuid)
    : Tracked (mgr.handleGMTicketDeleteOpcode player).mgr := by
  unfold TicketMgr.handleGMTicketDeleteOpcode
  cases found : mgr.getTicketByPlayer player.1 with
  | none => exact tracked
  | some entry =>
      obtain ⟨listed, -, opened⟩ := getTicketByPlayer_some mgr found
      exact tracked.closeTicket listed opened player

theorem Tracked.handleResolve (tracked : Tracked mgr) (player : PlayerGuid)
    : Tracked (mgr.handleGMResponseResolve player).mgr := tracked.handleDelete player

-- Commands

theorem Tracked.assignTo (tracked : Tracked mgr) (issuer : Issuer) (ticketId : Nat)
    (targetGuid : UInt32) (targetGmLevel : Nat)
    : Tracked (mgr.assignTo issuer ticketId targetGuid targetGmLevel).mgr := by
  unfold TicketMgr.assignTo
  cases listed : mgr.getTicket ticketId with
  | none => exact tracked
  | some ticket =>
      have fits := tracked.fits _ _ listed
      dsimp only
      repeat' split
      all_goals first
        | exact tracked
        | exact tracked.change listed rfl rfl fits

/-- A ticket that is closed from the game is counted down; the console closes none. -/
theorem Tracked.closeById (tracked : Tracked mgr) {issuer : Issuer} {ticketId : Nat}
    (safe : Safe mgr (.close issuer ticketId))
    : Tracked (mgr.closeById issuer ticketId).mgr := by
  unfold TicketMgr.closeById
  cases listed : mgr.getTicket ticketId with
  | none => exact tracked
  | some ticket =>
      dsimp only
      by_cases finished : (ticket.isClosed || ticket.completed) = true
      · rw [if_pos finished]
        exact tracked
      · rw [if_neg finished]
        obtain ⟨opened, uncompleted⟩ := not_or.mp (mt Bool.or_eq_true_iff.mpr finished)
        cases issuer with
        | none => exact absurd (safe ticket listed) (not_or.mpr ⟨opened, uncompleted⟩)
        | some player =>
            split
            · exact tracked
            · exact tracked.resolveAndCloseTicket listed (by simpa using opened) player

theorem Tracked.comment (tracked : Tracked mgr) {issuer : Issuer} {ticketId : Nat}
    {comment : Text} (safe : Safe mgr (.comment issuer ticketId comment))
    : Tracked (mgr.comment issuer ticketId comment).mgr := by
  unfold TicketMgr.comment
  cases listed : mgr.getTicket ticketId with
  | none => exact tracked
  | some ticket =>
      dsimp only
      split
      · exact tracked
      · rename_i allowed
        have short := (safe ticket listed).resolve_left allowed
        obtain ⟨message, -, response⟩ := (fits_iff _).mp (tracked.fits _ _ listed)
        exact tracked.change listed rfl rfl ((fits_iff _).mpr ⟨message, short, response⟩)

theorem Tracked.complete (tracked : Tracked mgr) {issuer : Issuer} {ticketId : Nat}
    {response : Text} (safe : Safe mgr (.complete issuer ticketId response))
    : Tracked (mgr.complete issuer ticketId response).mgr := by
  unfold TicketMgr.complete
  cases listed : mgr.getTicket ticketId with
  | none => exact tracked
  | some ticket =>
      dsimp only
      by_cases finished : (ticket.isClosed || ticket.completed) = true
      · rw [if_pos finished]
        exact tracked
      · rw [if_neg finished]
        obtain ⟨opened, uncompleted⟩ := not_or.mp (mt Bool.or_eq_true_iff.mpr finished)
        split
        · exact tracked
        · rename_i allowed
          have short := (((safe ticket listed).resolve_left opened).resolve_left
            uncompleted).resolve_left allowed
          obtain ⟨message, comment, -⟩ := (fits_iff _).mp (tracked.fits _ _ listed)
          exact tracked.change listed rfl rfl ((fits_iff _).mpr ⟨message, comment, short⟩)

theorem Tracked.deleteById (tracked : Tracked mgr) (ticketId : Nat)
    : Tracked (mgr.deleteById ticketId).mgr := by
  unfold TicketMgr.deleteById
  cases listed : mgr.getTicket ticketId with
  | none => exact tracked
  | some ticket =>
      dsimp only
      split
      · exact tracked
      · rename_i closed
        exact tracked.removeTicket listed (by simpa using closed)

/-- An escalation changes a ticket without saving it, so none may happen. -/
theorem Tracked.escalate (tracked : Tracked mgr) {ticketId : Nat}
    (safe : Safe mgr (.escalate ticketId))
    : Tracked (mgr.escalate ticketId).mgr := by
  unfold TicketMgr.escalate
  cases listed : mgr.getTicket ticketId with
  | none => exact tracked
  | some ticket =>
      have kept := safe ticket listed
      dsimp only
      rw [if_pos (by simpa [or_assoc] using kept)]
      exact tracked

theorem Tracked.reset (tracked : Tracked mgr)
    : Tracked mgr.reset.mgr := by
  unfold TicketMgr.reset
  split
  · exact tracked
  · rename_i none_open
    exact tracked.resetTickets (not_not.mp none_open)

theorem Tracked.toggleSystem (tracked : Tracked mgr)
    : Tracked mgr.toggleSystem.mgr :=
  ⟨tracked.counted, tracked.oneOpen, tracked.rows, tracked.fits, tracked.issued, tracked.small⟩

theorem Tracked.unAssign (tracked : Tracked mgr) (mySecurity security ticketId : Nat)
    : Tracked (mgr.unAssign mySecurity security ticketId).mgr := by
  unfold TicketMgr.unAssign
  cases listed : mgr.getTicket ticketId with
  | none => exact tracked
  | some ticket =>
      have fits := tracked.fits _ _ listed
      dsimp only
      repeat' split
      all_goals first
        | exact tracked
        | exact tracked.change listed rfl rfl fits

theorem Tracked.getById (tracked : Tracked mgr) (ticketId : Nat)
    : Tracked (mgr.getById ticketId).mgr := by
  unfold TicketMgr.getById
  cases listed : mgr.getTicket ticketId with
  | none => exact tracked
  | some ticket =>
      have fits := tracked.fits _ _ listed
      dsimp only
      split
      · exact tracked
      · exact tracked.change listed rfl rfl fits

theorem Tracked.getByName (tracked : Tracked mgr) (guid : UInt32)
    : Tracked (mgr.getByName guid).mgr := by
  unfold TicketMgr.getByName
  split
  · exact tracked
  · cases found : mgr.getTicketByPlayer guid with
    | none => exact tracked
    | some entry =>
        obtain ⟨listed, -, -⟩ := getTicketByPlayer_some mgr found
        have fits := tracked.fits _ _ listed
        exact tracked.change listed rfl rfl fits

theorem Tracked.responseAppend (tracked : Tracked mgr) {issuer : Issuer} {ticketId : Nat}
    {response : Text} {newLine : Bool}
    (safe : Safe mgr (.responseAppend issuer ticketId response newLine))
    : Tracked (mgr.responseAppend issuer ticketId response newLine).mgr := by
  unfold TicketMgr.responseAppend
  cases listed : mgr.getTicket ticketId with
  | none => exact tracked
  | some ticket =>
      dsimp only
      by_cases closed : ticket.isClosed = true
      · rw [if_pos closed]
        exact tracked
      · rw [if_neg closed]
        split
        · exact tracked
        · rename_i allowed
          have short := ((safe ticket listed).resolve_left closed).resolve_left allowed
          obtain ⟨message, comment, -⟩ := (fits_iff _).mp (tracked.fits _ _ listed)
          exact tracked.change listed rfl rfl ((fits_iff _).mpr ⟨message, comment, short⟩)

/-- Every safe request keeps the invariant. -/
theorem Tracked.step (tracked : Tracked mgr) {request : TicketRequest} (safe : Safe mgr request)
    : Tracked (step mgr request) := by
  cases request with
  | create levelReq level player packet => exact tracked.handleCreate safe
  | update player message valid => exact tracked.handleUpdate safe
  | abandon player => exact tracked.handleDelete player
  | resolve player => exact tracked.handleResolve player
  | assign issuer ticketId targetGuid targetGmLevel =>
      exact tracked.assignTo issuer ticketId targetGuid targetGmLevel
  | close issuer ticketId => exact tracked.closeById safe
  | comment issuer ticketId comment => exact tracked.comment safe
  | complete issuer ticketId response => exact tracked.complete safe
  | delete ticketId => exact tracked.deleteById ticketId
  | escalate ticketId => exact tracked.escalate safe
  | reset => exact tracked.reset
  | toggleSystem => exact tracked.toggleSystem
  | unassign mySecurity security ticketId => exact tracked.unAssign mySecurity security ticketId
  | viewId ticketId => exact tracked.getById ticketId
  | viewName guid => exact tracked.getByName guid
  | responseAppend issuer ticketId response newLine => exact tracked.responseAppend safe
  | restart allowTickets => exact tracked_restart tracked.soundRows allowTickets

end Handlers

-- Runs

section Runs

variable {mgr : TicketMgr}

theorem getTicket_saveToDB (mgr : TicketMgr) (id : Nat) (ticket : GmTicket) (other : Nat)
    : (mgr.saveToDB id ticket).getTicket other = mgr.getTicket other := by
  unfold TicketMgr.saveToDB
  split <;> rfl

/-- A creation that succeeds lists an open ticket of the player under the next id. -/
theorem createTicket_listed {player : PlayerGuid} {packet : CreatePacket}
    (success : (mgr.createTicket player packet).answers = [.createSuccess])
    : packet.readable = true
        ∧ ∃ ticket, (mgr.createTicket player packet).mgr.getTicket mgr.generateTicketId
              = some ticket
            ∧ ticket.playerGuid = player.1 ∧ ticket.isClosed = false := by
  unfold TicketMgr.createTicket at *
  by_cases readable : (!packet.readable) = true
  · rw [if_pos readable] at success
    simp at success
  · rw [if_neg readable]
    refine ⟨by simpa using readable,
      { playerGuid := player.1, message := packet.message, needMoreHelp := packet.needMoreHelp },
      ?_, rfl, rfl⟩
    unfold TicketMgr.addTicket
    refine (getTicket_saveToDB _ _ _ _).trans ?_
    exact (Table.get?_put _ _ _ _).trans (if_pos rfl)

theorem Tracked.create_fresh (tracked : Tracked mgr) {levelReq level : Nat} {player : PlayerGuid}
    {packet : CreatePacket} (safe : Safe mgr (.create levelReq level player packet))
    (success : (mgr.handleGMTicketCreateOpcode levelReq level player packet).answers
      = [.createSuccess])
    : mgr.getTicket mgr.generateTicketId = none
        ∧ ∃ ticket, (mgr.handleGMTicketCreateOpcode levelReq level player packet).mgr.getTicket
              mgr.generateTicketId = some ticket
            ∧ ticket.playerGuid = player.1 ∧ ticket.isClosed = false := by
  unfold TicketMgr.handleGMTicketCreateOpcode at *
  by_cases off : (!mgr.status) = true
  · rw [if_pos off] at success
    simp at success
  rw [if_neg off] at success ⊢
  by_cases low : level < levelReq
  · rw [if_pos low] at success
    simp at success
  rw [if_neg low] at success ⊢
  have on : mgr.status = true := by simpa using off
  cases found : mgr.getTicketByPlayer player.1 with
  | none =>
      simp only [found] at success
      obtain ⟨readable, listed⟩ := createTicket_listed success
      exact ⟨(tracked.fresh (safe on (not_lt.mp low) readable (by simp [found])).1).2, listed⟩
  | some entry =>
      simp only [found] at success
      dsimp only
      by_cases completed : entry.2.completed = true
      · rw [if_pos completed] at success ⊢
        obtain ⟨readable, listed⟩ := createTicket_listed success
        have below := (safe on (not_lt.mp low) readable (fun other same => by
          obtain rfl := Option.some.inj (found.symm.trans same)
          exact completed)).1
        have same : (mgr.closeTicket entry.1 player.1).generateTicketId = mgr.generateTicketId := by
          unfold TicketMgr.generateTicketId
          rw [lastTicketId_closeTicket]
        rw [same] at listed
        exact ⟨(tracked.fresh below).2, listed⟩
      · rw [if_neg completed] at success
        simp at success

/-- A reset is refused exactly while a ticket is open. -/
theorem Tracked.reset_refused (tracked : Tracked mgr)
    : (mgr.reset.answers = [.ticketPending]
          ↔ ∃ id ticket, mgr.getTicket id = some ticket ∧ ticket.isClosed = false)
        ∧ (mgr.reset.answers = [.ticketPending] → mgr.reset.mgr = mgr) := by
  have counted := tracked.counted ▸ @openTickets_pos_iff mgr
  unfold TicketMgr.reset
  by_cases pending : mgr.openTicketCount ≠ 0
  · rw [if_pos pending]
    exact ⟨iff_of_true rfl (counted.mp pending), fun _ => rfl⟩
  · rw [if_neg pending]
    refine ⟨iff_of_false (by simp) (fun opened => pending (counted.mpr opened)), ?_⟩
    intro refused
    simp at refused

theorem Tracked.lawful (tracked : Tracked mgr) {request : TicketRequest}
    (safe : Safe mgr request)
    : Lawful mgr request where
  fresh := by
    rintro levelReq level player packet rfl success
    exact tracked.create_fresh safe success
  refused := by
    rintro rfl
    exact tracked.reset_refused.1
  unchanged := by
    rintro rfl
    exact tracked.reset_refused.2

/-- A ticket that the console closes stays counted. -/
theorem console_close_drifts (tracked : Tracked mgr) {id : Nat} {ticket : GmTicket}
    (listed : mgr.getTicket id = some ticket) (opened : ticket.isClosed = false)
    (uncompleted : ticket.completed = false)
    : ¬ Consistent (step mgr (.close none id)) := by
  have closes : step mgr (.close none id)
      = mgr.changed id ((ticket.setClosedBy 0).setResolvedBy 0) mgr.openTicketCount := by
    unfold step handle TicketMgr.closeById
    dsimp only
    rw [listed]
    dsimp only
    rw [if_neg (by simp [opened, uncompleted]), if_neg (by simp [TicketMgr.barred])]
    exact resolveAndCloseTicket_eq listed (tracked.fits _ _ listed) 0
  intro consistent
  have changes := openTickets_changed listed ((ticket.setClosedBy 0).setResolvedBy 0)
    mgr.openTicketCount
  rw [closes] at consistent
  rw [opened, isClosed_of_typeClosed rfl, ← consistent.counted, ← tracked.counted] at changes
  change mgr.openTicketCount + 1 = mgr.openTicketCount + 0 at changes
  omega

/-- An escalation is missing in the row. -/
theorem escalation_unsaved (tracked : Tracked mgr) {id : Nat} {ticket : GmTicket}
    (listed : mgr.getTicket id = some ticket) (opened : ticket.isClosed = false)
    (uncompleted : ticket.completed = false) (unassigned : ticket.escalatedStatus = .unassigned)
    : ¬ Consistent (step mgr (.escalate id)) := by
  have escalates : step mgr (.escalate id)
      = mgr.setTicket id { ticket with escalatedStatus := .inEscalationQueue } := by
    unfold step handle TicketMgr.escalate
    dsimp only
    rw [listed]
    dsimp only
    rw [if_neg (by simp [opened, uncompleted, unassigned])]
  intro consistent
  rw [escalates] at consistent
  have now : (mgr.setTicket id { ticket with escalatedStatus := .inEscalationQueue }).getTicket id
      = some { ticket with escalatedStatus := .inEscalationQueue } := by
    refine (Table.get?_modify_self _ _ _).trans ?_
    exact (congrArg (Option.map _) listed).trans rfl
  have row : mgr.rows.get? id = some ticket.toRow := by
    rw [tracked.rows, listed, Option.map_some]
  have saved := Option.some.inj (row.symm.trans (consistent.persisted id _ now))
  have status := congrArg GmTicketRow.escalated saved
  change ticket.escalatedStatus = .inEscalationQueue at status
  rw [unassigned] at status
  simp at status

/-- From the rows of a database, the tickets stay consistent and the requests lawful as long as
no request wraps the ids, saves a text that is too long, closes from the console or escalates.
-/
theorem tickets_consistent_when_safe (rows : Table Nat GmTicketRow) (sound : SoundRows rows)
    (allowTickets : Bool) (requests : List TicketRequest)
    (safe : EachStep step Safe (({ rows := rows } : TicketMgr).restart allowTickets).mgr requests)
    : EachState step Consistent (({ rows := rows } : TicketMgr).restart allowTickets).mgr requests
        ∧ EachStep step Lawful (({ rows := rows } : TicketMgr).restart allowTickets).mgr
            requests := by
  have initial := @tracked_restart ({ rows := rows } : TicketMgr) sound allowTickets
  have preserved (mgr : TicketMgr) (request : TicketRequest) (tracked : Tracked mgr)
      (safe : Safe mgr request)
      : Tracked (step mgr request) := tracked.step safe
  refine ⟨?_, ?_⟩
  · exact (eachState_of_invariant preserved initial safe).imp (fun _ => Tracked.consistent)
  · exact eachStep_of_invariant preserved (fun _ _ tracked safe => tracked.lawful safe) initial safe

end Runs

-- One player and one game master

def firstCreates : TicketRequest :=
  .create 0 1 ⟨1, by decide⟩ { message := [72, 105], needMoreHelp := false }

theorem soundRows_empty
    : SoundRows ∅ where
  ids := by simp
  oneOpen := by simp
  fits := by simp

/-- A ticket is closed by a game master, and a reset follows. -/
theorem tickets_consistent_when_safe_applied
    : EachState step Consistent (({ rows := ∅ } : TicketMgr).restart true).mgr
          [firstCreates, .close (some ⟨2, by decide⟩) 1, .reset]
        ∧ EachStep step Lawful (({ rows := ∅ } : TicketMgr).restart true).mgr
          [firstCreates, .close (some ⟨2, by decide⟩) 1, .reset] :=
  tickets_consistent_when_safe ∅ soundRows_empty true _
    ⟨fun _ _ _ _ => by decide +kernel, trivial, trivial, trivial⟩

/-- The only ticket is closed from the console and stays counted. -/
theorem console_close_leaves_the_count
    : ¬ ∀ (rows : Table Nat GmTicketRow) (allowTickets : Bool) (requests : List TicketRequest),
        SoundRows rows
          → EachState step Consistent (({ rows := rows } : TicketMgr).restart allowTickets).mgr
              requests
            ∧ EachStep step Lawful (({ rows := rows } : TicketMgr).restart allowTickets).mgr
              requests := by
  intro claim
  have consistent := (claim ∅ true [firstCreates, .close none 1] soundRows_empty).1.last
  have counted : (run step (({ rows := ∅ } : TicketMgr).restart true).mgr
      [firstCreates, .close none 1]).openTicketCount = 1 := by
    decide +kernel
  have closed : (run step (({ rows := ∅ } : TicketMgr).restart true).mgr
      [firstCreates, .close none 1]).openTickets = 0 := by
    decide +kernel
  have same := consistent.counted
  rw [counted, closed] at same
  simp at same

end WarheadCore.Tickets
