import Mathlib.Data.List.MinMax
import WarheadCore.Foundation.MachineIntegers
import WarheadCore.Foundation.Tables

/-! The tickets of players to game masters: the list in memory, its counters, the rows of
gm_ticket, and the opcodes and commands that reach them.
A guid is the counter of a character, 0 when it is empty. Ids and the count of open tickets are
natural numbers with the 32-bit conversion written out where the source counts. A command comes
from a game master in the game or from the console, which has no guid. Each handler gives the
manager it leaves and what it answers; messages to all game masters are left out.
-/

namespace WarheadCore.Tickets

open Foundation

-- Tickets

/-- TicketType. -/
inductive TicketType where
  | typeOpen | typeClosed | typeCharacterDeleted
deriving DecidableEq

/-- GMTicketEscalationStatus. -/
inductive EscalationStatus where
  | unassigned | assigned | inEscalationQueue | escalatedAssigned
deriving DecidableEq

abbrev Text := List UInt8

/-- GmTicket; its id is the key under which the manager lists it. -/
structure GmTicket where
  playerGuid : UInt32
  type : TicketType := .typeOpen
  message : Text
  closedBy : UInt32 := 0
  resolvedBy : UInt32 := 0
  assignedTo : UInt32 := 0
  comment : Text := []
  completed : Bool := false
  escalatedStatus : EscalationStatus := .unassigned
  viewed : Bool := false
  needMoreHelp : Bool
  response : Text := []
deriving DecidableEq

structure GmTicketRow where
  type : TicketType
  playerGuid : UInt32
  description : Text
  closedBy : Int32
  assignedTo : UInt32
  comment : Text
  response : Text
  completed : Bool
  escalated : EscalationStatus
  viewed : Bool
  needMoreHelp : Bool
  resolvedBy : Int32
deriving DecidableEq

def maxTextBytes : Nat := 65535

namespace GmTicket

variable (ticket : GmTicket)

def isClosed : Bool := ticket.type ≠ .typeOpen

def isAssigned : Bool := ticket.assignedTo ≠ 0

def isAssignedTo (guid : UInt32) : Bool := ticket.assignedTo = guid

def isAssignedNotTo (guid : UInt32) : Bool := ticket.isAssigned && !ticket.isAssignedTo guid

def setAssignedTo (guid : UInt32) (isAdmin : Bool) : GmTicket :=
  { ticket with
    assignedTo := guid,
    escalatedStatus :=
      if isAdmin && ticket.escalatedStatus = .inEscalationQueue then .escalatedAssigned
      else if ticket.escalatedStatus = .unassigned then .assigned
      else ticket.escalatedStatus }

def setUnassigned : GmTicket :=
  { ticket with
    assignedTo := 0,
    escalatedStatus :=
      match ticket.escalatedStatus with
      | .assigned => .unassigned
      | .escalatedAssigned => .inEscalationQueue
      | .unassigned => .unassigned
      | .inEscalationQueue => .inEscalationQueue }

def setClosedBy (guid : UInt32) : GmTicket :=
  { ticket with closedBy := guid, type := .typeClosed }

def setResolvedBy (guid : UInt32) : GmTicket := { ticket with resolvedBy := guid }

def appendResponse (response : Text) : GmTicket :=
  { ticket with response := ticket.response ++ response }

def toRow : GmTicketRow :=
  { type := ticket.type, playerGuid := ticket.playerGuid, description := ticket.message,
    closedBy := ticket.closedBy.toInt32, assignedTo := ticket.assignedTo,
    comment := ticket.comment, response := ticket.response, completed := ticket.completed,
    escalated := ticket.escalatedStatus, viewed := ticket.viewed,
    needMoreHelp := ticket.needMoreHelp, resolvedBy := ticket.resolvedBy.toInt32 }

def fits : Bool :=
  ticket.message.length ≤ maxTextBytes && ticket.comment.length ≤ maxTextBytes
    && ticket.response.length ≤ maxTextBytes

end GmTicket

def GmTicketRow.loadFromDB (row : GmTicketRow) : GmTicket :=
  { playerGuid := row.playerGuid, type := row.type, message := row.description,
    closedBy := row.closedBy.toUInt32, resolvedBy := row.resolvedBy.toUInt32,
    assignedTo := row.assignedTo, comment := row.comment, completed := row.completed,
    escalatedStatus := row.escalated, viewed := row.viewed, needMoreHelp := row.needMoreHelp,
    response := row.response }

-- The manager and the table

structure TicketMgr where
  ticketList : Table Nat GmTicket := ∅
  status : Bool := true
  lastTicketId : Nat := 0
  openTicketCount : Nat := 0
  rows : Table Nat GmTicketRow := ∅

namespace TicketMgr

variable (mgr : TicketMgr)

def getTicket (ticketId : Nat) : Option GmTicket := mgr.ticketList.get? ticketId

/-- GetTicketByPlayer: the open ticket of a player with the lowest id, with its id. -/
def getTicketByPlayer (playerGuid : UInt32) : Option ((_ : Nat) × GmTicket) :=
  (mgr.ticketList.entries.filter (fun entry =>
    entry.2.playerGuid = playerGuid && !entry.2.isClosed)).argmin Sigma.fst

def saveToDB (ticketId : Nat) (ticket : GmTicket) : TicketMgr :=
  if ticket.fits then { mgr with rows := mgr.rows.put ticketId ticket.toRow } else mgr

def setTicket (ticketId : Nat) (ticket : GmTicket) : TicketMgr :=
  { mgr with ticketList := mgr.ticketList.modify ticketId (fun _ => ticket) }

def change (ticketId : Nat) (ticket : GmTicket) : TicketMgr :=
  (mgr.setTicket ticketId ticket).saveToDB ticketId ticket

def generateTicketId : Nat := toUInt32 (mgr.lastTicketId + 1 : Nat)

def addTicket (ticketId : Nat) (ticket : GmTicket) : TicketMgr :=
  { mgr with
    ticketList := mgr.ticketList.put ticketId ticket,
    openTicketCount :=
      if ticket.isClosed then mgr.openTicketCount
      else toUInt32 (mgr.openTicketCount + 1 : Nat) }.saveToDB ticketId ticket

/-- The count of open tickets after a ticket is closed: only a closer is counted down. -/
def countDown (source : UInt32) : Nat :=
  if source ≠ 0 then toUInt32 ((mgr.openTicketCount : Int) - 1) else mgr.openTicketCount

def closeTicket (ticketId : Nat) (source : UInt32) : TicketMgr :=
  match mgr.getTicket ticketId with
  | none => mgr
  | some ticket =>
      { mgr.setTicket ticketId (ticket.setClosedBy source) with
        openTicketCount := mgr.countDown source }.saveToDB ticketId (ticket.setClosedBy source)

def resolveAndCloseTicket (ticketId : Nat) (source : UInt32) : TicketMgr :=
  match mgr.getTicket ticketId with
  | none => mgr
  | some ticket =>
      let closed := (ticket.setClosedBy source).setResolvedBy source
      { mgr.setTicket ticketId closed with
        openTicketCount := mgr.countDown source }.saveToDB ticketId closed

def removeTicket (ticketId : Nat) : TicketMgr :=
  match mgr.getTicket ticketId with
  | none => mgr
  | some _ =>
      { mgr with
        rows := mgr.rows.remove ticketId,
        ticketList := mgr.ticketList.remove ticketId }

def resetTickets : TicketMgr :=
  let closed := mgr.ticketList.entries.filter (fun entry => entry.2.isClosed)
  let removed := (closed.map Sigma.fst).foldl removeTicket mgr
  { removed with lastTicketId := 0, rows := ∅ }

def loadTickets : TicketMgr :=
  let ticketList := mgr.rows.mapValues GmTicketRow.loadFromDB
  { mgr with
    ticketList := ticketList,
    lastTicketId := ticketList.keys.foldl max 0,
    openTicketCount := ticketList.values.foldl
      (fun count ticket => if ticket.isClosed then count else toUInt32 (count + 1 : Nat)) 0 }

end TicketMgr

-- Opcodes and commands

abbrev PlayerGuid := { guid : UInt32 // guid ≠ 0 }

/-- Who gives a command; none is the console. -/
abbrev Issuer := Option PlayerGuid

def Issuer.guid : Issuer → UInt32
  | none => 0
  | some player => player.1

/-- The answers of the opcodes, then those of the commands. -/
inductive TicketAnswer where
  | createError | createSuccess | updateError | updateSuccess | ticketDeleted | ticketReq
  | ticketNotExist | ticketAssignErrorA | ticketAssignErrorB | ticketAlreadyAssigned
  | ticketCannotClose | ticketCloseFirst | ticketPending | ticketReset | allowTickets
  | disallowTickets | ticketNotAssigned | ticketUnassignSecurity | noPlayersFound | ticketShown
deriving DecidableEq

structure Handled where
  mgr : TicketMgr
  answers : List TicketAnswer := []

/-- The fields of CMSG_GMTICKET_CREATE that are kept; `readable` is whether the packet and its chat
log are read to the end and their links are valid.
-/
structure CreatePacket where
  message : Text
  needMoreHelp : Bool
  readable : Bool := true

def secPlayer : Nat := 0
def secAdministrator : Nat := 7
def secConsole : Nat := 8

def isPlayerAccount (gmlevel : Nat) : Bool := gmlevel = secPlayer

def isAdminAccount (gmlevel : Nat) : Bool := secAdministrator ≤ gmlevel && gmlevel ≤ secConsole

namespace TicketMgr

variable (mgr : TicketMgr)

-- Opcodes

/-- The end of HandleGMTicketCreateOpcode, once the player has no ticket. -/
def createTicket (player : PlayerGuid) (packet : CreatePacket) : Handled :=
  if !packet.readable then { mgr := mgr }
  else
    let ticketId := mgr.generateTicketId
    let ticket : GmTicket :=
      { playerGuid := player.1, message := packet.message, needMoreHelp := packet.needMoreHelp }
    { mgr := { mgr with lastTicketId := ticketId }.addTicket ticketId ticket,
      answers := [.createSuccess] }

def handleGMTicketCreateOpcode (levelReq level : Nat) (player : PlayerGuid) (packet : CreatePacket)
    : Handled :=
  if !mgr.status then { mgr := mgr }
  else if level < levelReq then { mgr := mgr, answers := [.ticketReq] }
  else match mgr.getTicketByPlayer player.1 with
    | none => mgr.createTicket player packet
    | some entry =>
        -- The pointer sees the ticket closed by the line above the test.
        if entry.2.completed then (mgr.closeTicket entry.1 player.1).createTicket player packet
        else { mgr := mgr, answers := [.createError] }

def handleGMTicketUpdateOpcode (player : PlayerGuid) (message : Text) (valid : Bool) : Handled :=
  if !valid then { mgr := mgr }
  else match mgr.getTicketByPlayer player.1 with
    | none => { mgr := mgr, answers := [.updateError] }
    | some entry =>
        { mgr := mgr.change entry.1 { entry.2 with message := message },
          answers := [.updateSuccess] }

def handleGMTicketDeleteOpcode (player : PlayerGuid) : Handled :=
  match mgr.getTicketByPlayer player.1 with
  | none => { mgr := mgr }
  | some entry => { mgr := mgr.closeTicket entry.1 player.1, answers := [.ticketDeleted] }

def handleGMResponseResolve (player : PlayerGuid) : Handled :=
  match mgr.getTicketByPlayer player.1 with
  | none => { mgr := mgr }
  | some entry => { mgr := mgr.closeTicket entry.1 player.1, answers := [.ticketDeleted] }

-- Commands

def barred (issuer : Issuer) (ticket : GmTicket) : Bool :=
  match issuer with
  | none => false
  | some player => ticket.isAssignedNotTo player.1

/-- HandleGMTicketAssignToCommand; an unknown target has the empty guid. -/
def assignTo (issuer : Issuer) (ticketId : Nat) (targetGuid : UInt32) (targetGmLevel : Nat)
    : Handled :=
  match mgr.getTicket ticketId with
  | none => { mgr := mgr, answers := [.ticketNotExist] }
  | some ticket =>
      if ticket.isClosed then { mgr := mgr, answers := [.ticketNotExist] }
      else if targetGuid = 0 || isPlayerAccount targetGmLevel then
        { mgr := mgr, answers := [.ticketAssignErrorA] }
      else if ticket.isAssignedTo targetGuid then
        { mgr := mgr, answers := [.ticketAssignErrorB] }
      else if barred issuer ticket then { mgr := mgr, answers := [.ticketAlreadyAssigned] }
      else
        { mgr := mgr.change ticketId
            (ticket.setAssignedTo targetGuid (isAdminAccount targetGmLevel)) }

def closeById (issuer : Issuer) (ticketId : Nat) : Handled :=
  match mgr.getTicket ticketId with
  | none => { mgr := mgr, answers := [.ticketNotExist] }
  | some ticket =>
      if ticket.isClosed || ticket.completed then { mgr := mgr, answers := [.ticketNotExist] }
      else if barred issuer ticket then { mgr := mgr, answers := [.ticketCannotClose] }
      else { mgr := mgr.resolveAndCloseTicket ticketId issuer.guid }

def comment (issuer : Issuer) (ticketId : Nat) (comment : Text) : Handled :=
  match mgr.getTicket ticketId with
  | none => { mgr := mgr, answers := [.ticketNotExist] }
  | some ticket =>
      if barred issuer ticket then { mgr := mgr, answers := [.ticketAlreadyAssigned] }
      else { mgr := mgr.change ticketId { ticket with comment := comment } }

/-- HandleGMTicketCompleteCommand; the response is empty when none is given. -/
def complete (issuer : Issuer) (ticketId : Nat) (response : Text) : Handled :=
  match mgr.getTicket ticketId with
  | none => { mgr := mgr, answers := [.ticketNotExist] }
  | some ticket =>
      if ticket.isClosed || ticket.completed then { mgr := mgr, answers := [.ticketNotExist] }
      else if barred issuer ticket then { mgr := mgr, answers := [.ticketAlreadyAssigned] }
      else
        { mgr := mgr.change ticketId
            { (ticket.appendResponse response).setResolvedBy issuer.guid with completed := true } }

def deleteById (ticketId : Nat) : Handled :=
  match mgr.getTicket ticketId with
  | none => { mgr := mgr, answers := [.ticketNotExist] }
  | some ticket =>
      if !ticket.isClosed then { mgr := mgr, answers := [.ticketCloseFirst] }
      else { mgr := mgr.removeTicket ticketId }

def escalate (ticketId : Nat) : Handled :=
  match mgr.getTicket ticketId with
  | none => { mgr := mgr, answers := [.ticketNotExist] }
  | some ticket =>
      if ticket.isClosed || ticket.completed || ticket.escalatedStatus ≠ .unassigned then
        { mgr := mgr, answers := [.ticketNotExist] }
      else { mgr := mgr.setTicket ticketId { ticket with escalatedStatus := .inEscalationQueue } }

def reset : Handled :=
  if mgr.openTicketCount ≠ 0 then { mgr := mgr, answers := [.ticketPending] }
  else { mgr := mgr.resetTickets, answers := [.ticketReset] }

def toggleSystem : Handled :=
  { mgr := { mgr with status := !mgr.status },
    answers := [if mgr.status then .disallowTickets else .allowTickets] }

/-- HandleGMTicketUnAssignCommand, with the security of the assignee. -/
def unAssign (mySecurity security ticketId : Nat) : Handled :=
  match mgr.getTicket ticketId with
  | none => { mgr := mgr, answers := [.ticketNotExist] }
  | some ticket =>
      if ticket.isClosed then { mgr := mgr, answers := [.ticketNotExist] }
      else if !ticket.isAssigned then { mgr := mgr, answers := [.ticketNotAssigned] }
      else if security > mySecurity then { mgr := mgr, answers := [.ticketUnassignSecurity] }
      else { mgr := mgr.change ticketId ticket.setUnassigned }

def getById (ticketId : Nat) : Handled :=
  match mgr.getTicket ticketId with
  | none => { mgr := mgr, answers := [.ticketNotExist] }
  | some ticket =>
      if ticket.isClosed || ticket.completed then { mgr := mgr, answers := [.ticketNotExist] }
      else { mgr := mgr.change ticketId { ticket with viewed := true }, answers := [.ticketShown] }

/-- HandleGMTicketGetByNameCommand; an unknown name has the empty guid. -/
def getByName (guid : UInt32) : Handled :=
  if guid = 0 then { mgr := mgr, answers := [.noPlayersFound] }
  else match mgr.getTicketByPlayer guid with
    | none => { mgr := mgr, answers := [.ticketNotExist] }
    | some entry =>
        { mgr := mgr.change entry.1 { entry.2 with viewed := true }, answers := [.ticketShown] }

def responseAppend (issuer : Issuer) (ticketId : Nat) (response : Text) (newLine : Bool)
    : Handled :=
  match mgr.getTicket ticketId with
  | none => { mgr := mgr, answers := [.ticketNotExist] }
  | some ticket =>
      if ticket.isClosed then { mgr := mgr, answers := [.ticketNotExist] }
      else if barred issuer ticket then { mgr := mgr, answers := [.ticketAlreadyAssigned] }
      else
        { mgr := mgr.change ticketId
            (ticket.appendResponse (response ++ if newLine then [10] else [])) }

/-- A restart: the manager is new, the rows are read again and the system is on if configured. -/
def restart (allowTickets : Bool) : Handled :=
  { mgr := ({ status := allowTickets, rows := mgr.rows } : TicketMgr).loadTickets }

end TicketMgr

-- Requests

inductive TicketRequest where
  | create (levelReq level : Nat) (player : PlayerGuid) (packet : CreatePacket)
  | update (player : PlayerGuid) (message : Text) (valid : Bool)
  | abandon (player : PlayerGuid)
  | resolve (player : PlayerGuid)
  | assign (issuer : Issuer) (ticketId : Nat) (targetGuid : UInt32) (targetGmLevel : Nat)
  | close (issuer : Issuer) (ticketId : Nat)
  | comment (issuer : Issuer) (ticketId : Nat) (comment : Text)
  | complete (issuer : Issuer) (ticketId : Nat) (response : Text)
  | delete (ticketId : Nat)
  | escalate (ticketId : Nat)
  | reset
  | toggleSystem
  | unassign (mySecurity security ticketId : Nat)
  | viewId (ticketId : Nat)
  | viewName (guid : UInt32)
  | responseAppend (issuer : Issuer) (ticketId : Nat) (response : Text) (newLine : Bool)
  | restart (allowTickets : Bool)

def handle (mgr : TicketMgr) : TicketRequest → Handled
  | .create levelReq level player packet =>
      mgr.handleGMTicketCreateOpcode levelReq level player packet
  | .update player message valid => mgr.handleGMTicketUpdateOpcode player message valid
  | .abandon player => mgr.handleGMTicketDeleteOpcode player
  | .resolve player => mgr.handleGMResponseResolve player
  | .assign issuer ticketId targetGuid targetGmLevel =>
      mgr.assignTo issuer ticketId targetGuid targetGmLevel
  | .close issuer ticketId => mgr.closeById issuer ticketId
  | .comment issuer ticketId comment => mgr.comment issuer ticketId comment
  | .complete issuer ticketId response => mgr.complete issuer ticketId response
  | .delete ticketId => mgr.deleteById ticketId
  | .escalate ticketId => mgr.escalate ticketId
  | .reset => mgr.reset
  | .toggleSystem => mgr.toggleSystem
  | .unassign mySecurity security ticketId => mgr.unAssign mySecurity security ticketId
  | .viewId ticketId => mgr.getById ticketId
  | .viewName guid => mgr.getByName guid
  | .responseAppend issuer ticketId response newLine =>
      mgr.responseAppend issuer ticketId response newLine
  | .restart allowTickets => mgr.restart allowTickets

def step (mgr : TicketMgr) (request : TicketRequest) : TicketMgr := (handle mgr request).mgr

end WarheadCore.Tickets
