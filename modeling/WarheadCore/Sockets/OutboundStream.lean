import WarheadCore.Foundation.LittleEndian
import WarheadCore.Foundation.Runs
import WarheadCore.Sockets.WorldSocketWrites

/-! What the network has taken is the beginning of the stream of all packets, and a reader finds the
packets in the stream.
-/

namespace WarheadCore.Sockets.Outbound

open Foundation Foundation.StreamTransforms

variable {κ : Type} {cipher : Cipher κ}

-- The stream and its reader

namespace Cipher

/-- The bytes of these packets, each with its header, and the key after them. -/
def wire (cipher : Cipher κ) : κ → List Packet → List (BitVec 8) × κ
  | key, [] => ([], key)
  | key, packet :: rest =>
      let (header, key) := cipher.encryptHeader key packet
      let (others, key) := cipher.wire key rest
      (header ++ packet.contents ++ others, key)

def decryptPart (cipher : Cipher κ) (encrypted : Bool) (key : κ) (part : List (BitVec 8))
    : List (BitVec 8) × κ :=
  if encrypted then transform cipher.decrypt key part else (part, key)

end Cipher

/-- The size and the opcode that a header tells; the highest bit of the first byte tells whether the
size has three bytes.
-/
def readHeader : List (BitVec 8) → Option (Nat × BitVec 16)
  | [high, middle, low, first, second] =>
      some ((high &&& 0x7F).toNat * 2 ^ 16 + middle.toNat * 2 ^ 8 + low.toNat,
        LittleEndian.ofBytes [first, second])
  | [high, low, first, second] =>
      some (high.toNat * 2 ^ 8 + low.toNat, LittleEndian.ofBytes [first, second])
  | _ => none

def bytesAfter (first : List (BitVec 8)) : Nat :=
  if first.any (fun byte => byte &&& 0x80 ≠ 0) then 4 else 3

/-- A reader that knows which packets are encrypted: the sizes, the opcodes and the payloads. -/
def Cipher.read (cipher : Cipher κ)
    : κ → List Bool → List (BitVec 8) → Option (List (Nat × BitVec 16 × List (BitVec 8)))
  | _, [], stream => if stream.isEmpty then some [] else none
  | key, encrypted :: flags, stream => do
      let (first, key) := cipher.decryptPart encrypted key (stream.take 1)
      let (others, key) :=
        cipher.decryptPart encrypted key ((stream.drop 1).take (bytesAfter first))
      let (size, opcode) ← readHeader (first ++ others)
      let stream := (stream.drop 1).drop (bytesAfter first)
      if stream.length < size - 2 then none
      else
        let packets ← cipher.read key flags (stream.drop (size - 2))
        some ((size, opcode, stream.take (size - 2)) :: packets)

-- The reader finds the packets

namespace ServerPktHeader

variable {header : ServerPktHeader}

/-- A byte whose highest bit is set on top of what it holds. -/
theorem marked
    : ∀ byte : BitVec 8,
        ((0x80#8 ||| byte) &&& 0x7F).toNat = byte.toNat % 128
        ∧ (0x80#8 ||| byte) &&& 0x80 ≠ 0 := by
  decide +kernel

/-- A byte whose highest bit is not set. -/
theorem unmarked : ∀ byte : BitVec 8, byte.toNat < 128 → byte &&& 0x80 = 0 := by
  decide +kernel

theorem toNat_byte (size : BitVec 32) (bits : Nat)
    : ((size >>> bits).setWidth 8).toNat = size.toNat / 2 ^ bits % 2 ^ 8 := by
  rw [BitVec.toNat_setWidth, BitVec.toNat_ushiftRight, Nat.shiftRight_eq_div_pow]

/-- The opcode is little endian. -/
theorem ofBytes_cmd (cmd : BitVec 16)
    : LittleEndian.ofBytes [cmd.setWidth 8, (cmd >>> 8).setWidth 8] = cmd :=
  @LittleEndian.ofBytes_toBytes 16 2 le_rfl cmd

/-- The size and the opcode come back from the bytes of a header. -/
theorem readHeader_bytes (small : header.size.toNat < 2 ^ 23)
    : readHeader header.bytes = some (header.size.toNat, header.cmd) := by
  have low : (header.size.setWidth 8).toNat = header.size.toNat % 2 ^ 8 := BitVec.toNat_setWidth ..
  unfold bytes isLargePacket
  by_cases large : header.size.toNat > 0x7FFF
  · rw [decide_eq_true large, if_pos rfl]
    dsimp only [List.cons_append, List.nil_append, readHeader]
    rw [(marked _).1, toNat_byte, toNat_byte, low, ofBytes_cmd]
    refine congrArg (fun size => some (size, header.cmd)) ?_
    omega
  · rw [decide_eq_false large, if_neg Bool.false_ne_true]
    dsimp only [List.nil_append, readHeader]
    rw [toNat_byte, low, ofBytes_cmd]
    refine congrArg (fun size => some (size, header.cmd)) ?_
    omega

/-- The first byte of a header tells how many there are. -/
theorem bytes_eq (header : ServerPktHeader)
    : ∃ first others, header.bytes = first :: others ∧ others.length = bytesAfter [first] := by
  unfold bytes isLargePacket
  by_cases large : header.size.toNat > 0x7FFF
  · rw [decide_eq_true large, if_pos rfl]
    refine ⟨_, _, rfl, ?_⟩
    unfold bytesAfter
    rw [List.any_cons, decide_eq_true (marked _).2, Bool.true_or, if_pos rfl]
    rfl
  · rw [decide_eq_false large, if_neg Bool.false_ne_true]
    refine ⟨_, _, rfl, ?_⟩
    have few : ((header.size >>> 8).setWidth 8).toNat < 128 := by
      rw [toNat_byte]
      omega
    unfold bytesAfter
    rw [List.any_cons, unmarked _ few, List.any_nil]
    rfl

end ServerPktHeader

namespace Cipher

def encryptPart (cipher : Cipher κ) (encrypted : Bool) (key : κ) (part : List (BitVec 8))
    : List (BitVec 8) × κ :=
  if encrypted then transform cipher.encrypt key part else (part, key)

@[simp] theorem length_encryptPart (encrypted : Bool) (key : κ) (part : List (BitVec 8))
    : (cipher.encryptPart encrypted key part).1.length = part.length := by
  unfold encryptPart
  cases encrypted with
  | true => exact length_transform key part
  | false => rfl

/-- A header may be encrypted in parts. -/
theorem encryptPart_append (encrypted : Bool) (key : κ) (first later : List (BitVec 8))
    : cipher.encryptPart encrypted key (first ++ later)
      = ((cipher.encryptPart encrypted key first).1
          ++ (cipher.encryptPart encrypted (cipher.encryptPart encrypted key first).2 later).1,
        (cipher.encryptPart encrypted (cipher.encryptPart encrypted key first).2 later).2) := by
  unfold encryptPart
  cases encrypted with
  | true => exact transform_append key first later
  | false => rfl

/-- What is encrypted is found again. -/
theorem decryptPart_encryptPart (encrypted : Bool) (key : κ) (part : List (BitVec 8))
    : cipher.decryptPart encrypted key (cipher.encryptPart encrypted key part).1
      = (part, (cipher.encryptPart encrypted key part).2) := by
  unfold encryptPart decryptPart
  cases encrypted with
  | true => exact transform_undo cipher.decrypt_encrypt key part
  | false => rfl

/-- The header of a packet has as many bytes as it says. -/
theorem length_encryptHeader (key : κ) (packet : Packet)
    : (cipher.encryptHeader key packet).1.length = packet.header.getHeaderLength :=
  (length_encryptPart packet.needsEncryption key packet.header.bytes).trans
    packet.header.length_bytes

/-- The size of a packet that is not too large. -/
theorem size_header {packet : Packet} (small : packet.contents.length + 2 < 2 ^ 23)
    : packet.header.size.toNat = packet.contents.length + 2 := by
  unfold Packet.header
  rw [BitVec.toNat_ofNat]
  exact Nat.mod_eq_of_lt (small.trans (by decide))

/-- A reader that finds a header and a payload reads on after them. -/
theorem read_packet {encrypted : Bool} {key between after : κ}
    {start rest first others contents tail : List (BitVec 8)} {opcode : BitVec 16}
    {flags : List Bool} (one : start.length = 1)
    (decrypted : cipher.decryptPart encrypted key start = (first, between))
    (more : rest.length = bytesAfter first)
    (decrypted' : cipher.decryptPart encrypted between rest = (others, after))
    (header : readHeader (first ++ others) = some (contents.length + 2, opcode))
    : cipher.read key (encrypted :: flags) (start ++ rest ++ contents ++ tail)
      = (cipher.read after flags tail).map ((contents.length + 2, opcode, contents) :: ·) := by
  have stream : start ++ rest ++ contents ++ tail = start ++ (rest ++ (contents ++ tail)) := by
    simp only [List.append_assoc]
  rw [stream, read, ← one, List.take_left, decrypted, List.drop_left]
  dsimp only
  rw [← more, List.take_left, decrypted', List.drop_left]
  dsimp only
  rw [header]
  dsimp only [Option.bind_eq_bind, Option.bind_some]
  rw [Nat.add_sub_cancel, if_neg (by rw [List.length_append]; omega), List.take_left,
    List.drop_left]
  cases cipher.read after flags tail <;> rfl

/-- A reader finds the sizes, the opcodes and the payloads of all packets.
Witness: induction on the packets; the first byte tells the length of the header, which tells that
of the payload.
-/
theorem read_wire (key : κ) {packets : List Packet}
    (small : ∀ packet ∈ packets, packet.contents.length + 2 < 2 ^ 23)
    : cipher.read key (packets.map Packet.needsEncryption) (cipher.wire key packets).1
      = some (packets.map
          (fun packet => (packet.contents.length + 2, packet.opcode, packet.contents))) := by
  induction packets generalizing key with
  | nil => rfl
  | cons packet rest ih =>
      have fits := small packet List.mem_cons_self
      obtain ⟨first, others, bytes, count⟩ := packet.header.bytes_eq
      have header : cipher.encryptHeader key packet
          = cipher.encryptPart packet.needsEncryption key ([first] ++ others) :=
        congrArg (cipher.encryptPart packet.needsEncryption key) bytes
      have decoded := ServerPktHeader.readHeader_bytes ((size_header fits).trans_lt fits)
      rw [bytes, size_header fits] at decoded
      rw [encryptPart_append] at header
      rw [List.map_cons, wire, header]
      dsimp only
      rw [read_packet (length_encryptPart ..) (decryptPart_encryptPart ..)
        ((length_encryptPart ..).trans count) (decryptPart_encryptPart ..) decoded,
        ih _ (fun packet member => small packet (List.mem_cons_of_mem _ member))]
      rfl

end Cipher

-- What the buffers hold

/-- The stream of packets one after the other. -/
theorem Cipher.wire_append (key : κ) (first later : List Packet)
    : cipher.wire key (first ++ later)
      = ((cipher.wire key first).1 ++ (cipher.wire (cipher.wire key first).2 later).1,
        (cipher.wire (cipher.wire key first).2 later).2) := by
  induction first generalizing key with
  | nil => rfl
  | cons packet rest ih =>
      simp only [List.cons_append, wire, ih, List.append_assoc]

namespace WorldSocket

def pending (socket : WorldSocket κ) : List (BitVec 8) :=
  socket._writeQueue.flatMap MessageBuffer.active

def Sound (cipher : Cipher κ) (key : κ) (socket : WorldSocket κ) : Prop :=
  ∃ dequeued, socket.queued = dequeued ++ socket._bufferQueue
    ∧ cipher.wire key dequeued = (socket.written ++ socket.pending, socket._authCrypt)

/-- The network and the buffers have the same bytes in the end, and nothing else is changed. -/
structure SameStream (socket next : WorldSocket κ) : Prop where
  stream : next.written ++ next.pending = socket.written ++ socket.pending
  queued : next.queued = socket.queued
  bufferQueue : next._bufferQueue = socket._bufferQueue
  authCrypt : next._authCrypt = socket._authCrypt

variable {socket next last : WorldSocket κ} {key : κ}

theorem SameStream.refl (socket : WorldSocket κ) : socket.SameStream socket :=
  ⟨rfl, rfl, rfl, rfl⟩

theorem SameStream.trans (first : socket.SameStream next) (later : next.SameStream last)
    : socket.SameStream last where
  stream := later.stream.trans first.stream
  queued := later.queued.trans first.queued
  bufferQueue := later.bufferQueue.trans first.bufferQueue
  authCrypt := later.authCrypt.trans first.authCrypt

theorem SameStream.sound (same : socket.SameStream next) (sound : socket.Sound cipher key)
    : next.Sound cipher key := by
  obtain ⟨dequeued, queued, wire⟩ := sound
  refine ⟨dequeued, ?_, ?_⟩
  · rw [same.queued, same.bufferQueue, queued]
  · rw [same.stream, same.authCrypt, wire]

-- Writes

theorem sameStream_asyncProcessQueue (socket : WorldSocket κ)
    : socket.SameStream socket.asyncProcessQueue := by
  unfold asyncProcessQueue
  split <;> exact ⟨rfl, rfl, rfl, rfl⟩

/-- A write takes the first bytes of the first buffer. -/
theorem handleQueue_eq (socket : WorldSocket κ) (result : Written)
    : ∃ next more, socket.handleQueue result = some (next, more) ∧ socket.SameStream next := by
  unfold handleQueue
  split
  · exact ⟨_, _, rfl, .refl socket⟩
  · next queuedMessage rest front =>
      have pending : socket.pending
          = queuedMessage.active ++ rest.flatMap MessageBuffer.active := by
        unfold WorldSocket.pending
        rw [front]
        rfl
      cases result with
      | wouldBlock => exact ⟨_, _, rfl, sameStream_asyncProcessQueue socket⟩
      | sent bytes =>
          dsimp only
          have popped (all : queuedMessage.getActiveSize ≤ min (max bytes 1)
                queuedMessage.getActiveSize)
              : socket.SameStream (popWriteQueue { socket with
                  written := socket.written ++ queuedMessage.active.take
                    (min (max bytes 1) queuedMessage.getActiveSize) }) := by
            refine ⟨?_, rfl, rfl, rfl⟩
            rw [pending, List.take_of_length_le (MessageBuffer.length_active.trans_le all),
              ← List.append_assoc]
            unfold popWriteQueue WorldSocket.pending
            dsimp only
            rw [front, List.tail_cons]
          split
          · next none => exact ⟨_, _, rfl, popped (by omega)⟩
          · split
            · next part =>
                obtain ⟨read, complete, active, -⟩ := MessageBuffer.readCompleted_eq part.le
                rw [complete]
                refine ⟨_, _, rfl, SameStream.trans ?_ (sameStream_asyncProcessQueue _)⟩
                refine ⟨?_, rfl, rfl, rfl⟩
                have whole : queuedMessage.active
                    = queuedMessage.active.take (min (max bytes 1) queuedMessage.getActiveSize)
                      ++ read.active := by
                  rw [active, List.take_append_drop]
                rw [pending]
                conv_rhs => rw [whole]
                change _ ++ (read.active ++ rest.flatMap MessageBuffer.active) = _
                simp only [List.append_assoc]
            · next full => exact ⟨_, _, rfl, popped (Nat.not_lt.mp full)⟩

/-- The writes of an update. -/
theorem handleQueueLoop_eq (results : List Written) (socket : WorldSocket κ)
    : ∃ next, socket.handleQueueLoop results = some next ∧ socket.SameStream next := by
  induction results generalizing socket with
  | nil =>
      obtain ⟨next, more, run, same⟩ := handleQueue_eq socket .wouldBlock
      refine ⟨next, ?_, same⟩
      unfold handleQueueLoop
      rw [run]
      rfl
  | cons result rest ih =>
      obtain ⟨next, more, run, same⟩ := handleQueue_eq socket result
      unfold handleQueueLoop
      rw [run]
      cases more with
      | true =>
          obtain ⟨last, run', same'⟩ := ih next
          exact ⟨last, run', same.trans same'⟩
      | false => exact ⟨next, rfl, same⟩

/-- An update writes when the socket is not closed and does not wait for the network. -/
theorem baseUpdate_eq (socket : WorldSocket κ) (results : List Written)
    : ∃ next, socket.baseUpdate results = some next ∧ socket.SameStream next := by
  unfold baseUpdate
  split
  · exact ⟨socket, rfl, .refl socket⟩
  · split
    · exact ⟨socket, rfl, .refl socket⟩
    · exact handleQueueLoop_eq results socket

-- Packets in buffers

/-- A packet that fits is written with its header. -/
theorem writePacket_eq {buffer : MessageBuffer} {header : List (BitVec 8)} {packet : Packet}
    (fits : packet.contents.length + header.length ≤ buffer.getRemainingSpace)
    : ∃ written, writePacket buffer header packet = some written
      ∧ written.active = buffer.active ++ header ++ packet.contents
      ∧ written._storage.length = buffer._storage.length
      ∧ written._rpos = buffer._rpos := by
  obtain ⟨first, write, active, space, rpos, wpos⟩ :=
    MessageBuffer.write_eq ((Nat.le_add_left _ _).trans fits)
  unfold writePacket
  rw [write]
  dsimp only [Option.bind_eq_bind, Option.bind_some]
  split
  · have more : packet.contents.length ≤ first.getRemainingSpace := by
      unfold MessageBuffer.getRemainingSpace at fits ⊢
      omega
    obtain ⟨second, write', active', space', rpos', -⟩ := MessageBuffer.write_eq more
    exact ⟨second, write', active'.trans (by rw [active]), space'.trans space, rpos'.trans rpos⟩
  · next empty =>
      have none : packet.contents = [] := by
        rw [Bool.not_eq_true, Bool.not_eq_false', List.isEmpty_iff] at empty
        exact empty
      exact ⟨first, rfl, by rw [none, List.append_nil, active], space, rpos⟩

/-- A buffer that is queued stays behind what is pending. -/
theorem pending_queuePacket (socket : WorldSocket κ) (buffer : MessageBuffer)
    : (socket.queuePacket buffer).pending = socket.pending ++ buffer.active := by
  unfold queuePacket pending
  rw [List.flatMap_append]
  exact congrArg (_ ++ ·) (List.append_nil _)

/-- What was written, is pending and is in the buffer that is filled is this stream, and nothing
else is changed.
-/
structure Filled (socket next : WorldSocket κ) (buffer : MessageBuffer)
    (stream : List (BitVec 8))
    : Prop where
  stream : next.written ++ next.pending ++ buffer.active = stream
  queued : next.queued = socket.queued
  bufferQueue : next._bufferQueue = socket._bufferQueue
  authCrypt : next._authCrypt = socket._authCrypt

/-- Before a packet that does not fit, the buffer is queued and a new one is begun. -/
theorem filled_makeSpace (socket : WorldSocket κ) (buffer : MessageBuffer) (size : Nat)
    : ∃ next after, socket.makeSpace buffer size = some (next, after)
      ∧ socket.Filled next after (socket.written ++ socket.pending ++ buffer.active)
      ∧ (after.getRemainingSpace < size → after.active = []) := by
  unfold makeSpace
  split
  · obtain ⟨resized, resize, -, wpos, rpos⟩ :=
      @MessageBuffer.resize_eq buffer.move.2 rfl socket._sendBufferSize
    have empty : resized.active = [] := MessageBuffer.active_eq_nil.mpr (wpos.trans rpos.symm)
    rw [resize]
    refine ⟨_, _, rfl, ⟨?_, rfl, rfl, rfl⟩, fun _ => empty⟩
    rw [pending_queuePacket, empty, List.append_nil, List.append_assoc]
    rfl
  · next fits => exact ⟨_, _, rfl, ⟨rfl, rfl, rfl, rfl⟩, fun few => (fits few).elim⟩

/-- A packet is put into the buffer that has space for it, or into one of its own behind it. -/
theorem filled_put (socket : WorldSocket κ) (buffer : MessageBuffer) (header : List (BitVec 8))
    (packet : Packet)
    (alone : buffer.getRemainingSpace < packet.contents.length + header.length →
      buffer.active = [])
    : ∃ next after,
        socket.putPacket buffer (packet.contents.length + header.length) header packet
          = some (next, after)
        ∧ socket.Filled next after
          (socket.written ++ socket.pending ++ buffer.active ++ (header ++ packet.contents)) := by
  unfold putPacket
  split
  · next fits =>
      obtain ⟨written, write, active, -⟩ := writePacket_eq fits
      rw [write]
      refine ⟨_, _, rfl, ?_, rfl, rfl, rfl⟩
      rw [active]
      simp only [List.append_assoc]
  · next large =>
      have fits : packet.contents.length + header.length
          ≤ (MessageBuffer.sized (packet.contents.length + header.length)).getRemainingSpace := by
        unfold MessageBuffer.getRemainingSpace MessageBuffer.sized
        rw [List.length_replicate, Nat.sub_zero]
      obtain ⟨written, write, active, -⟩ := writePacket_eq fits
      have empty : (MessageBuffer.sized (packet.contents.length + header.length)).active = [] :=
        MessageBuffer.active_eq_nil.mpr rfl
      rw [write]
      refine ⟨_, _, rfl, ?_, rfl, rfl, rfl⟩
      rw [pending_queuePacket, active, alone (Nat.lt_of_not_le large), empty]
      simp only [List.append_assoc, List.append_nil, List.nil_append]
      rfl

/-- A packet that is dequeued is added to the stream. -/
theorem filled_dequeue (socket : WorldSocket κ) (buffer : MessageBuffer) (packet : Packet)
    : ∃ next after, socket.dequeue cipher buffer packet = some (next, after)
      ∧ next.written ++ next.pending ++ after.active
        = socket.written ++ socket.pending ++ buffer.active
          ++ (cipher.wire socket._authCrypt [packet]).1
      ∧ next._authCrypt = (cipher.wire socket._authCrypt [packet]).2
      ∧ next.queued = socket.queued ∧ next._bufferQueue = socket._bufferQueue := by
  have length := @Cipher.length_encryptHeader κ cipher socket._authCrypt packet
  unfold WorldSocket.dequeue Cipher.wire Cipher.wire
  dsimp only
  rw [← length]
  generalize cipher.encryptHeader socket._authCrypt packet = sealed
  obtain ⟨between, space, run, filled, empty⟩ := filled_makeSpace
    { socket with _authCrypt := sealed.2 } buffer (packet.contents.length + sealed.1.length)
  rw [run]
  dsimp only [Option.bind_eq_bind, Option.bind_some]
  obtain ⟨next, after, run', filled'⟩ := filled_put between space sealed.1 packet empty
  refine ⟨next, after, run', ?_, filled'.authCrypt.trans filled.authCrypt,
    filled'.queued.trans filled.queued, filled'.bufferQueue.trans filled.bufferQueue⟩
  rw [filled'.stream, filled.stream, List.append_nil]
  rfl

/-- All packets that are dequeued are added to the stream. -/
theorem filled_dequeueAll (packets : List Packet) (socket : WorldSocket κ) (buffer : MessageBuffer)
    : ∃ next after, socket.dequeueAll cipher buffer packets = some (next, after)
      ∧ next.written ++ next.pending ++ after.active
        = socket.written ++ socket.pending ++ buffer.active
          ++ (cipher.wire socket._authCrypt packets).1
      ∧ next._authCrypt = (cipher.wire socket._authCrypt packets).2
      ∧ next.queued = socket.queued ∧ next._bufferQueue = socket._bufferQueue := by
  induction packets generalizing socket buffer with
  | nil => exact ⟨socket, buffer, rfl, (List.append_nil _).symm, rfl, rfl, rfl⟩
  | cons packet rest ih =>
      obtain ⟨between, space, run, stream, key, queued, waiting⟩ :=
        @filled_dequeue κ cipher socket buffer packet
      obtain ⟨next, after, run', stream', key', queued', waiting'⟩ := ih between space
      have split := @Cipher.wire_append κ cipher socket._authCrypt [packet] rest
      rw [List.singleton_append] at split
      refine ⟨next, after, ?_, ?_, ?_, queued'.trans queued, waiting'.trans waiting⟩
      · unfold dequeueAll
        rw [run]
        exact run'
      · rw [stream', stream, split, key, List.append_assoc]
      · rw [key', key, split]

-- Steps

/-- An update keeps the stream. -/
theorem Sound.update (sound : socket.Sound cipher key) (results : List Written)
    : ∃ next, socket.update cipher results = some next ∧ next.Sound cipher key
      ∧ next.queued = socket.queued := by
  obtain ⟨dequeued, queued, wire⟩ := sound
  obtain ⟨next, buffer, run, stream, authCrypt, queued', waiting⟩ :=
    @filled_dequeueAll κ cipher socket._bufferQueue { socket with _bufferQueue := [] }
      (.sized socket._sendBufferSize)
  have empty : (MessageBuffer.sized socket._sendBufferSize).active = [] :=
    MessageBuffer.active_eq_nil.mpr rfl
  rw [empty, List.append_nil] at stream
  have whole : cipher.wire key socket.queued
      = (next.written ++ next.pending ++ buffer.active, next._authCrypt) := by
    rw [queued, Cipher.wire_append, wire, stream, authCrypt]
    rfl
  have all : next.queued = socket.queued ++ next._bufferQueue :=
    queued'.trans ((List.append_nil _).symm.trans (congrArg _ waiting.symm))
  have flushed : (if buffer.getActiveSize > 0 then next.queuePacket buffer
        else next).Sound cipher key
      ∧ (if buffer.getActiveSize > 0 then next.queuePacket buffer else next).queued
        = socket.queued := by
    split
    · refine ⟨⟨socket.queued, all, ?_⟩, queued'⟩
      rw [whole, pending_queuePacket, List.append_assoc]
      rfl
    · next none =>
        have nothing : buffer.active = [] := by
          rw [← List.length_eq_zero_iff, MessageBuffer.length_active]
          omega
        refine ⟨⟨socket.queued, all, ?_⟩, queued'⟩
        rw [whole, nothing, List.append_nil]
  obtain ⟨last, run', same⟩ := baseUpdate_eq
    (if buffer.getActiveSize > 0 then next.queuePacket buffer else next) results
  refine ⟨last, ?_, same.sound flushed.1, same.queued.trans flushed.2⟩
  unfold WorldSocket.update
  dsimp only
  rw [run]
  exact run'

/-- Every step keeps the stream, and queues at most the packet that it is given. -/
theorem Sound.step (sound : socket.Sound cipher key) (input : Step)
    : ∃ next, socket.step cipher input = some next ∧ next.Sound cipher key
      ∧ ∀ packet ∈ next.queued, packet ∈ socket.queued ∨ input = .sendPacket packet := by
  have known {next : WorldSocket κ} (queued : next.queued = socket.queued) (packet : Packet)
      (member : packet ∈ next.queued) : packet ∈ socket.queued ∨ input = .sendPacket packet :=
    Or.inl (queued ▸ member)
  cases input with
  | sendPacket packet =>
      refine ⟨_, rfl, ?_⟩
      unfold WorldSocket.sendPacket
      split
      · exact ⟨sound, known rfl⟩
      · obtain ⟨dequeued, queued, wire⟩ := sound
        refine ⟨⟨dequeued, ?_, wire⟩, fun other member => ?_⟩
        · dsimp only
          rw [queued, List.append_assoc]
        · rcases List.mem_append.mp member with old | new
          · exact Or.inl old
          · exact Or.inr (congrArg _ (List.mem_singleton.mp new).symm)
  | update results =>
      obtain ⟨next, run, sound', queued⟩ := sound.update results
      exact ⟨next, run, sound', known queued⟩
  | writable result =>
      unfold WorldSocket.step writeHandlerWrapper
      dsimp only
      split
      · obtain ⟨next, more, run, same⟩ :=
          handleQueue_eq { socket with _isWritingAsync := false } result
        have sound' : Sound cipher key { socket with _isWritingAsync := false } := sound
        rw [run]
        exact ⟨next, rfl, same.sound sound', known same.queued⟩
      · exact ⟨socket, rfl, sound, known rfl⟩
  | delayedClose => exact ⟨_, rfl, sound, known rfl⟩

/-- Every run keeps the stream, and queues no other packets than those it is given. -/
theorem Sound.run (steps : List Step) (sound : socket.Sound cipher key)
    : ∃ next, socket.run cipher steps = some next ∧ next.Sound cipher key
      ∧ ∀ packet ∈ next.queued, packet ∈ socket.queued ∨ .sendPacket packet ∈ steps := by
  induction steps generalizing socket with
  | nil => exact ⟨socket, rfl, sound, fun _ member => Or.inl member⟩
  | cons input rest ih =>
      obtain ⟨next, first, sound', known⟩ := sound.step input
      obtain ⟨last, later, sound'', known'⟩ := ih sound'
      refine ⟨last, ?_, sound'', fun packet member => ?_⟩
      · unfold WorldSocket.run at later ⊢
        rw [List.foldlM_cons, first]
        exact later
      · rcases known' packet member with before | given
        · refine (known packet before).imp_right (fun same => ?_)
          rw [same]
          exact List.mem_cons_self
        · exact Or.inr (List.mem_cons_of_mem _ given)

end WorldSocket

-- The bytes that were written

/-- In every run no buffer is written or read past its end, the bytes that were written are the
beginning of the stream of the packets that were queued, and all of it once nothing is left; and a
reader of the stream finds the sizes, opcodes and payloads of these packets.
-/
theorem written_is_prefix_of_packets (cipher : Cipher κ) (key : κ) (sendBufferSize : Nat)
    (steps : List Step)
    (small : ∀ packet, Step.sendPacket packet ∈ steps → packet.contents.length + 2 < 2 ^ 23)
    : ∃ socket : WorldSocket κ,
        WorldSocket.run cipher { _authCrypt := key, _sendBufferSize := sendBufferSize } steps
          = some socket
        ∧ socket.written <+: (cipher.wire key socket.queued).1
        ∧ (socket._bufferQueue = [] → socket._writeQueue = [] →
          socket.written = (cipher.wire key socket.queued).1)
        ∧ cipher.read key (socket.queued.map Packet.needsEncryption)
            (cipher.wire key socket.queued).1
          = some (socket.queued.map
              (fun packet => (packet.contents.length + 2, packet.opcode, packet.contents))) := by
  have start : WorldSocket.Sound cipher key
      { _authCrypt := key, _sendBufferSize := sendBufferSize } := ⟨[], rfl, rfl⟩
  obtain ⟨socket, run, ⟨dequeued, queued, wire⟩, known⟩ := start.run steps
  have fits (packet : Packet) (member : packet ∈ socket.queued)
      : packet.contents.length + 2 < 2 ^ 23 := by
    rcases known packet member with old | given
    · cases old
    · exact small packet given
  refine ⟨socket, run, ?_, fun none empty => ?_, Cipher.read_wire key fits⟩
  · rw [queued, Cipher.wire_append, wire, List.append_assoc]
    exact List.prefix_append _ _
  · rw [queued, none, List.append_nil, wire]
    unfold WorldSocket.pending
    rw [empty]
    exact (List.append_nil _).symm

def Cipher.ofKeystream (next : κ → BitVec 8 × κ) : Cipher κ where
  encrypt := fun key byte => (byte ^^^ (next key).1, (next key).2)
  decrypt := fun key byte => (byte ^^^ (next key).1, (next key).2)
  decrypt_encrypt := fun key byte => by
    rw [BitVec.xor_assoc, BitVec.xor_self, BitVec.xor_zero]

theorem written_is_prefix_of_packets_applied
    : ∃ socket : WorldSocket (BitVec 8),
        WorldSocket.run (.ofKeystream (fun key => (key, key + 7)))
          { _authCrypt := 1, _sendBufferSize := 8 }
          [.sendPacket ⟨1, [2, 3], false⟩, .sendPacket ⟨4, [], true⟩, .update [.sent 3],
            .writable (.sent 9), .sendPacket ⟨5, [6, 7, 8, 9, 10], true⟩, .update [.sent 4]]
          = some socket
        ∧ socket.written
          <+: ((Cipher.ofKeystream (fun key => (key, key + 7))).wire 1 socket.queued).1 := by
  obtain ⟨socket, run, taken, -⟩ := written_is_prefix_of_packets
    (.ofKeystream (fun key => (key, key + 7))) (1 : BitVec 8) 8
    [.sendPacket ⟨1, [2, 3], false⟩, .sendPacket ⟨4, [], true⟩, .update [.sent 3],
      .writable (.sent 9), .sendPacket ⟨5, [6, 7, 8, 9, 10], true⟩, .update [.sent 4]] (by
    intro packet member
    simp only [List.mem_cons, Step.sendPacket.injEq, reduceCtorEq, List.not_mem_nil, or_false,
      false_or] at member
    rcases member with rfl | rfl | rfl <;> decide)
  exact ⟨socket, run, taken⟩

/-- A buffer of the size 4 is queued empty before a packet that it does not hold. -/
example
    : (WorldSocket.run (.ofKeystream (fun key => (key, key + 7)))
        { _authCrypt := 1#8, _sendBufferSize := 4 }
        [.sendPacket ⟨5, [6, 7], false⟩, .update [.sent 9], .update [.sent 9]]).map
          WorldSocket.written
      = some [0, 4, 5, 0, 6, 7] := by
  decide +kernel

end WarheadCore.Sockets.Outbound
