import WarheadCore.Foundation.Framing
import WarheadCore.Foundation.LittleEndian
import WarheadCore.Foundation.StreamTransforms
import WarheadCore.Sockets.MessageBuffer

/-! What a client sends: reads of the network fill a buffer, from which headers and payloads are
put together.
-/

namespace WarheadCore.Sockets.Inbound

open Foundation

structure ClientPktHeader where
  size : BitVec 16
  cmd : BitVec 32

namespace ClientPktHeader

def NUM_OPCODE_HANDLERS : Nat := 0x51F

def isValidSize (header : ClientPktHeader) : Bool :=
  header.size.toNat ≥ 4 && header.size.toNat < 10240

def isValidOpcode (header : ClientPktHeader) : Bool := header.cmd.toNat < NUM_OPCODE_HANDLERS

def ofBytes (bytes : List (BitVec 8)) : ClientPktHeader where
  size := LittleEndian.ofBytes (bytes.take 2)
  cmd := LittleEndian.ofBytes ((bytes.drop 2).take 4)

def toBytes (header : ClientPktHeader) : List (BitVec 8) :=
  LittleEndian.toBytes 2 header.size ++ LittleEndian.toBytes 4 header.cmd

/-- The opcode is found again in the bytes. -/
theorem cmd_ofBytes_toBytes (header : ClientPktHeader)
    : (ofBytes header.toBytes).cmd = header.cmd := by
  have first : (LittleEndian.toBytes 2 header.size).length = 2 := LittleEndian.length_toBytes 2 _
  have second : (LittleEndian.toBytes 4 header.cmd).length = 4 := LittleEndian.length_toBytes 4 _
  unfold ofBytes toBytes
  dsimp only
  rw [List.drop_append_of_le_length first.ge, List.drop_eq_nil_of_le first.le, List.nil_append,
    List.take_of_length_le second.le]
  exact LittleEndian.ofBytes_toBytes (by decide) header.cmd

def convertSize (header : ClientPktHeader) : ClientPktHeader :=
  { header with size := LittleEndian.ofBytes (LittleEndian.toBytes 2 header.size).reverse }

end ClientPktHeader

/-- The rest of the server, as the socket uses it: the cipher of headers, which decrypts one byte
after the other when it is initialized, and the handler of packets, which takes all of them.
-/
structure Host (σ : Type) where
  isInitialized : σ → Bool
  decrypt : σ → BitVec 8 → BitVec 8 × σ
  readData : σ → BitVec 32 → List (BitVec 8) → σ

def Host.decryptRecv {σ : Type} (host : Host σ) (state : σ) (data : List (BitVec 8))
    : List (BitVec 8) × σ :=
  StreamTransforms.transform host.decrypt state data

structure WorldSocket (σ : Type) where
  _readBuffer : MessageBuffer := .sized 4096
  _headerBuffer : MessageBuffer := .sized 6
  _packetBuffer : MessageBuffer := .sized 4096
  closed : Bool := false
  state : σ
  handed : List (BitVec 32 × List (BitVec 8)) := []

/-- How an iteration of the loop of ReadHandler ends. -/
inductive Flow where
  | continues
  | breaks
  | returns
  deriving DecidableEq

namespace WorldSocket

variable {σ : Type} (host : Host σ) (socket : WorldSocket σ)

def asyncRead : WorldSocket σ :=
  if socket.closed then socket
  else { socket with _readBuffer := socket._readBuffer.normalize.ensureFreeSpace }

def closeSocket : WorldSocket σ := { socket with closed := true }

/-- ReadHeaderHandler: whether the header is well-formed. No result is a failed assertion. -/
def readHeaderHandler : Option (WorldSocket σ × Bool) :=
  if six : socket._headerBuffer.getActiveSize = 6 then
    let (bytes, state) :=
      if host.isInitialized socket.state then
        host.decryptRecv socket.state socket._headerBuffer.active
      else (socket._headerBuffer.active, socket.state)
    let header := (ClientPktHeader.ofBytes bytes).convertSize
    if !header.isValidSize || !header.isValidOpcode then
      some ({ socket with state := state }, false)
    else
      let header := { header with size := header.size - 4 }
      (socket._packetBuffer.resize header.size.toNat).map (fun packetBuffer =>
        ({ socket with
            state := state
            _headerBuffer := socket._headerBuffer.overwrite header.toBytes (by
              rw [six]
              simp [ClientPktHeader.toBytes])
            _packetBuffer := packetBuffer }, true))
  else none

def readDataHandler : WorldSocket σ :=
  let opcode := (ClientPktHeader.ofBytes socket._headerBuffer.active).cmd
  let (payload, moved) := socket._packetBuffer.move
  { socket with
    _packetBuffer := moved
    state := host.readData socket.state opcode payload
    handed := socket.handed ++ [(opcode, payload)] }

/-- The payload is read as far as it has come; then the packet is handled when it is complete. -/
def readPayload : Option (WorldSocket σ × Flow) :=
  let handled (socket : WorldSocket σ) : WorldSocket σ × Flow :=
    let handled := socket.readDataHandler host
    ({ handled with _headerBuffer := handled._headerBuffer.reset }, .continues)
  if socket._packetBuffer.getRemainingSpace > 0 then do
    let readDataSize :=
      min socket._readBuffer.getActiveSize socket._packetBuffer.getRemainingSpace
    let packetBuffer ← socket._packetBuffer.write (socket._readBuffer.active.take readDataSize)
    let readBuffer ← socket._readBuffer.readCompleted readDataSize
    let socket := { socket with _packetBuffer := packetBuffer, _readBuffer := readBuffer }
    if socket._packetBuffer.getRemainingSpace > 0 then
      if socket._readBuffer.getActiveSize = 0 then some (socket, .breaks) else none
    else some (handled socket)
  else some (handled socket)

def iterate : Option (WorldSocket σ × Flow) :=
  if socket._headerBuffer.getRemainingSpace > 0 then do
    let readHeaderSize :=
      min socket._readBuffer.getActiveSize socket._headerBuffer.getRemainingSpace
    let headerBuffer ← socket._headerBuffer.write (socket._readBuffer.active.take readHeaderSize)
    let readBuffer ← socket._readBuffer.readCompleted readHeaderSize
    let socket := { socket with _headerBuffer := headerBuffer, _readBuffer := readBuffer }
    if socket._headerBuffer.getRemainingSpace > 0 then
      if socket._readBuffer.getActiveSize = 0 then some (socket, .breaks) else none
    else
      let (socket, wellFormed) ← socket.readHeaderHandler host
      if wellFormed then socket.readPayload host else some (socket.closeSocket, .returns)
  else socket.readPayload host

def readLoop : Nat → WorldSocket σ → Option (WorldSocket σ)
  | fuel, socket =>
      if socket._readBuffer.getActiveSize = 0 then some socket.asyncRead
      else
        match fuel with
        | 0 => none
        | fuel + 1 => do
            match ← socket.iterate host with
            | (socket, .continues) => readLoop fuel socket
            | (socket, .breaks) => some socket.asyncRead
            | (socket, .returns) => some socket

def readHandler (fuel : Nat) : Option (WorldSocket σ) :=
  if socket.closed then some socket else readLoop host fuel socket

/-- ReadHandlerInternal: the network has put these bytes after the write pointer. -/
def readHandlerInternal (transferred : List (BitVec 8)) : Option (WorldSocket σ) := do
  let readBuffer ← socket._readBuffer.write transferred
  let socket := { socket with _readBuffer := readBuffer }
  socket.readHandler host socket._readBuffer.getActiveSize

/-- A read of at most so many bytes of the stream, as far as there is space. A closed socket does
not read.
-/
def receive (stream : List (BitVec 8)) (size : Nat) : Option (WorldSocket σ × List (BitVec 8)) :=
  if socket.closed then some (socket, stream)
  else
    let transferred := min size socket._readBuffer.getRemainingSpace
    (socket.readHandlerInternal host (stream.take transferred)).map
      (fun socket => (socket, stream.drop transferred))

def receiveAll : WorldSocket σ → List (BitVec 8) → List Nat
    → Option (WorldSocket σ × List (BitVec 8))
  | socket, stream, [] => some (socket, stream)
  | socket, stream, size :: rest => do
      let (socket, stream) ← socket.receive host stream size
      receiveAll socket stream rest

end WorldSocket

end WarheadCore.Sockets.Inbound
