import WarheadCore.Foundation.StreamTransforms
import WarheadCore.Sockets.MessageBuffer

/-! What the server sends: packets are put into buffers, which are written as far as the network
takes them.
-/

namespace WarheadCore.Sockets.Outbound

open Foundation

/-- The cipher of headers: the server encrypts one byte after the other, and a client with the same
key decrypts them.
-/
structure Cipher (κ : Type) where
  encrypt : κ → BitVec 8 → BitVec 8 × κ
  decrypt : κ → BitVec 8 → BitVec 8 × κ
  decrypt_encrypt : ∀ key byte, decrypt key (encrypt key byte).1 = (byte, (encrypt key byte).2)

structure Packet where
  opcode : BitVec 16
  contents : List (BitVec 8)
  needsEncryption : Bool

structure ServerPktHeader where
  size : BitVec 32
  cmd : BitVec 16

namespace ServerPktHeader

variable (header : ServerPktHeader)

def isLargePacket : Bool := header.size.toNat > 0x7FFF

def getHeaderLength : Nat := 2 + (if header.isLargePacket then 3 else 2)

def bytes : List (BitVec 8) :=
  (if header.isLargePacket then [0x80#8 ||| (header.size >>> 16).setWidth 8] else [])
    ++ [(header.size >>> 8).setWidth 8, header.size.setWidth 8, header.cmd.setWidth 8,
      (header.cmd >>> 8).setWidth 8]

@[simp] theorem length_bytes : header.bytes.length = header.getHeaderLength := by
  unfold bytes getHeaderLength
  cases header.isLargePacket <;> rfl

end ServerPktHeader

/-- The header of a packet: the size of the payload with that of the opcode. -/
def Packet.header (packet : Packet) : ServerPktHeader where
  size := BitVec.ofNat 32 (packet.contents.length + 2)
  cmd := packet.opcode

def Cipher.encryptHeader {κ : Type} (cipher : Cipher κ) (key : κ) (packet : Packet)
    : List (BitVec 8) × κ :=
  if packet.needsEncryption then
    StreamTransforms.transform cipher.encrypt key packet.header.bytes
  else (packet.header.bytes, key)

/-- What a write of the network may do without an error: it takes some bytes, all of them or not, or
it would block. Only of an empty buffer it takes none.
-/
inductive Written where
  | wouldBlock
  | sent (bytes : Nat)

/-- A socket, with the packets it was given and the bytes that the network has taken. -/
structure WorldSocket (κ : Type) where
  _bufferQueue : List Packet := []
  _writeQueue : List MessageBuffer := []
  _authCrypt : κ
  _sendBufferSize : Nat
  _closed : Bool := false
  _closing : Bool := false
  _isWritingAsync : Bool := false
  queued : List Packet := []
  written : List (BitVec 8) := []

inductive Step where
  | sendPacket (packet : Packet)
  | update (results : List Written)
  | writable (result : Written)
  | delayedClose

namespace WorldSocket

variable {κ : Type} (cipher : Cipher κ) (socket : WorldSocket κ)

def isOpen : Bool := !socket._closed && !socket._closing

def sendPacket (packet : Packet) : WorldSocket κ :=
  if !socket.isOpen then socket
  else
    { socket with
      _bufferQueue := socket._bufferQueue ++ [packet]
      queued := socket.queued ++ [packet] }

def queuePacket (buffer : MessageBuffer) : WorldSocket κ :=
  { socket with _writeQueue := socket._writeQueue ++ [buffer] }

def writePacket (buffer : MessageBuffer) (header : List (BitVec 8)) (packet : Packet)
    : Option MessageBuffer := do
  let buffer ← buffer.write header
  if !packet.contents.isEmpty then buffer.write packet.contents else some buffer

/-- The buffer is queued and begun anew when a packet of this size does not fit. No result is a
write past the end of a buffer.
-/
def makeSpace (buffer : MessageBuffer) (size : Nat) : Option (WorldSocket κ × MessageBuffer) :=
  if buffer.getRemainingSpace < size then
    (buffer.move.2.resize socket._sendBufferSize).map (socket.queuePacket buffer, ·)
  else some (socket, buffer)

/-- A packet of this size is put into the buffer if it fits, or into one of its own. -/
def putPacket (buffer : MessageBuffer) (size : Nat) (header : List (BitVec 8)) (packet : Packet)
    : Option (WorldSocket κ × MessageBuffer) :=
  if buffer.getRemainingSpace ≥ size then (writePacket buffer header packet).map (socket, ·)
  else (writePacket (.sized size) header packet).map (socket.queuePacket ·, buffer)

def dequeue (buffer : MessageBuffer) (packet : Packet)
    : Option (WorldSocket κ × MessageBuffer) := do
  let (header, authCrypt) := cipher.encryptHeader socket._authCrypt packet
  let size := packet.contents.length + packet.header.getHeaderLength
  let (socket, buffer) ← makeSpace { socket with _authCrypt := authCrypt } buffer size
  socket.putPacket buffer size header packet

def dequeueAll : WorldSocket κ → MessageBuffer → List Packet
    → Option (WorldSocket κ × MessageBuffer)
  | socket, buffer, [] => some (socket, buffer)
  | socket, buffer, packet :: rest => do
      let (socket, buffer) ← socket.dequeue cipher buffer packet
      dequeueAll socket buffer rest

def asyncProcessQueue : WorldSocket κ :=
  if socket._isWritingAsync then socket else { socket with _isWritingAsync := true }

/-- The first buffer is done with; a socket that was to close after the last one closes. -/
def popWriteQueue : WorldSocket κ :=
  { socket with
    _writeQueue := socket._writeQueue.tail
    _closed := socket._closed || socket._closing && socket._writeQueue.tail.isEmpty }

def handleQueue (result : Written) : Option (WorldSocket κ × Bool) :=
  match socket._writeQueue with
  | [] => some (socket, false)
  | queuedMessage :: rest =>
      let bytesToSend := queuedMessage.getActiveSize
      match result with
      | .wouldBlock => some (socket.asyncProcessQueue, false)
      | .sent bytes =>
          let bytesSent := min (max bytes 1) bytesToSend
          let socket :=
            { socket with written := socket.written ++ queuedMessage.active.take bytesSent }
          if bytesSent = 0 then some (socket.popWriteQueue, false)
          else if bytesSent < bytesToSend then
            (queuedMessage.readCompleted bytesSent).map (fun queuedMessage =>
              (asyncProcessQueue { socket with _writeQueue := queuedMessage :: rest }, false))
          else some (socket.popWriteQueue, !rest.isEmpty)

/-- The loop of Update; writes beyond these would block. -/
def handleQueueLoop : WorldSocket κ → List Written → Option (WorldSocket κ)
  | socket, [] => (socket.handleQueue .wouldBlock).map Prod.fst
  | socket, result :: rest => do
      let (socket, more) ← socket.handleQueue result
      if more then handleQueueLoop socket rest else some socket

def baseUpdate (results : List Written) : Option (WorldSocket κ) :=
  if socket._closed then some socket
  else if socket._isWritingAsync || socket._writeQueue.isEmpty && !socket._closing then some socket
  else socket.handleQueueLoop results

def update (results : List Written) : Option (WorldSocket κ) := do
  let dequeued := { socket with _bufferQueue := [] }
  let (socket, buffer) ←
    dequeued.dequeueAll cipher (.sized socket._sendBufferSize) socket._bufferQueue
  let socket := if buffer.getActiveSize > 0 then socket.queuePacket buffer else socket
  socket.baseUpdate results

def writeHandlerWrapper (result : Written) : Option (WorldSocket κ) :=
  if socket._isWritingAsync then
    (handleQueue { socket with _isWritingAsync := false } result).map Prod.fst
  else some socket

def step : Step → Option (WorldSocket κ)
  | .sendPacket packet => some (socket.sendPacket packet)
  | .update results => socket.update cipher results
  | .writable result => socket.writeHandlerWrapper result
  | .delayedClose => some { socket with _closing := true }

def run (steps : List Step) : Option (WorldSocket κ) := steps.foldlM (step cipher) socket

end WorldSocket

end WarheadCore.Sockets.Outbound
