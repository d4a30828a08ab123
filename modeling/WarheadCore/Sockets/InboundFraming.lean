import WarheadCore.Sockets.WorldSocketReads
import Mathlib.Algebra.BigOperators.Group.List.Basic
import Mathlib.Algebra.Order.Ring.Nat

/-! The packets that are handled are the frames of the stream, however the network splits it. -/

namespace WarheadCore.Sockets.Inbound

open Foundation Foundation.Framing

variable {σ : Type} {host : Host σ}

/-- The frames of a client: six bytes of header, decrypted when the cipher is initialized, tell the
opcode and the size of the payload.
-/
def Host.format (host : Host σ) : Format σ (BitVec 8) (BitVec 32) where
  headerSize := 6
  headerSize_pos := by decide
  decode := fun state bytes =>
    let (bytes, state) :=
      if host.isInitialized state then host.decryptRecv state bytes else (bytes, state)
    let header := (ClientPktHeader.ofBytes bytes).convertSize
    if !header.isValidSize || !header.isValidOpcode then (state, none)
    else (state, some (header.cmd, (header.size - 4).toNat))
  deliver := host.readData

-- What the buffers hold

namespace WorldSocket

structure Receiving (socket : WorldSocket σ) (opcode : BitVec 32) (size : Nat)
    (received : List (BitVec 8))
    : Prop where
  opened : socket.closed = false
  header : socket._headerBuffer.getActiveSize = 6 ∧ socket._headerBuffer._storage.length = 6
  opcode : (ClientPktHeader.ofBytes socket._headerBuffer.active).cmd = opcode
  start : socket._packetBuffer._rpos = 0
  space : socket._packetBuffer._storage.length = size
  payload : socket._packetBuffer.active = received

structure Awaiting (socket : WorldSocket σ) (received : List (BitVec 8)) : Prop where
  opened : socket.closed = false
  start : socket._headerBuffer._rpos = 0
  space : socket._headerBuffer._storage.length = 6
  header : socket._headerBuffer.active = received
  payload : socket._packetBuffer._wpos = 0

/-- The buffers hold what is known of the frame that is not complete. -/
def Holds (socket : WorldSocket σ) : Progress (BitVec 8) (BitVec 32) → Prop
  | .header received => socket.Awaiting received ∧ received.length < 6
  | .payload opcode size received =>
      socket.Receiving opcode size received ∧ received.length < size
  | .rejected => socket.closed = true

structure Matches (socket : WorldSocket σ) (reader : Reader σ (BitVec 8) (BitVec 32)) : Prop where
  holds : socket.Holds reader.progress
  state : socket.state = reader.state
  handed : socket.handed = reader.frames

variable {socket : WorldSocket σ} {reader : Reader σ (BitVec 8) (BitVec 32)}

/-- A packet that is complete is handed over, and the next header is awaited. -/
theorem Receiving.handled {opcode : BitVec 32} {size : Nat} {received : List (BitVec 8)}
    (receiving : socket.Receiving opcode size received)
    (full : socket._packetBuffer.getRemainingSpace = 0)
    (state : socket.state = reader.state) (handed : socket.handed = reader.frames)
    : Matches
        { socket.readDataHandler host with
          _headerBuffer := (socket.readDataHandler host)._headerBuffer.reset }
        (host.format.deliverTo reader opcode received) := by
  have within := socket._packetBuffer.wpos_le
  have whole : socket._packetBuffer._storage = received := by
    rw [← receiving.payload, MessageBuffer.active, receiving.start, List.drop_zero,
      List.take_of_length_le]
    unfold MessageBuffer.getRemainingSpace at full
    omega
  constructor
  case holds =>
    refine ⟨⟨receiving.opened, rfl, receiving.header.2, ?_, rfl⟩, Nat.zero_lt_succ 5⟩
    exact MessageBuffer.active_eq_nil.mpr rfl
  case state =>
    unfold readDataHandler MessageBuffer.move Format.deliverTo
    dsimp only
    rw [whole, receiving.opcode, state]
    rfl
  case handed =>
    unfold readDataHandler MessageBuffer.move Format.deliverTo
    dsimp only
    rw [whole, receiving.opcode, handed]

-- An iteration of the loop

structure Advanced (socket next : WorldSocket σ) (flow : Flow) (consumed : List (BitVec 8))
    (reader : Reader σ (BitVec 8) (BitVec 32))
    : Prop where
  split : socket._readBuffer.active = consumed ++ next._readBuffer.active
  space : next._readBuffer._storage.length = socket._readBuffer._storage.length
  agrees : next.Matches reader
  broken : flow = .breaks → next._readBuffer.active = []
  returned : flow = .returns ↔ next.closed = true

/-- A payload that is not complete takes what has come. -/
theorem Receiving.readPayload {opcode : BitVec 32} {size : Nat} {received : List (BitVec 8)}
    (receiving : socket.Receiving opcode size received) (missing : received.length < size)
    (progress : reader.progress = .payload opcode size received)
    (state : socket.state = reader.state) (handed : socket.handed = reader.frames)
    : ∃ next flow consumed, socket.readPayload host = some (next, flow)
      ∧ socket.Advanced next flow consumed (host.format.feedAll reader consumed)
      ∧ (socket._readBuffer.active ≠ [] → consumed ≠ []) := by
  have remaining : socket._packetBuffer.getRemainingSpace = size - received.length := by
    rw [MessageBuffer.remaining_eq receiving.start, receiving.space, receiving.payload]
  obtain ⟨data, written, read, write, complete, split, count, active, moved⟩ :=
    MessageBuffer.transfer socket._readBuffer socket._packetBuffer
  rw [receiving.payload] at active
  rw [remaining] at count
  have now : Receiving { socket with _packetBuffer := written, _readBuffer := read }
      opcode size (received ++ data) := {
    opened := receiving.opened
    header := receiving.header
    opcode := receiving.opcode
    start := moved.start.trans receiving.start
    space := moved.filled.trans receiving.space
    payload := active
  }
  have some (nonempty : socket._readBuffer.active ≠ []) : data ≠ [] := by
    rintro rfl
    have pos := List.length_pos_of_ne_nil nonempty
    rw [MessageBuffer.length_active] at pos
    rw [List.length_nil] at count
    omega
  unfold WorldSocket.readPayload
  dsimp only
  rw [if_pos (by omega), write, complete]
  dsimp only [Option.bind_eq_bind, Option.bind_some]
  have left : written.getRemainingSpace = size - (received.length + data.length) := by
    rw [MessageBuffer.remaining_eq now.start, now.space, active, List.length_append]
  by_cases short : received.length + data.length < size
  · have drained : read.active = [] := by
      have total := congrArg List.length split
      rw [List.length_append, MessageBuffer.length_active] at total
      exact List.length_eq_zero_iff.mp (by omega)
    rw [if_pos (by omega), if_pos (by rw [← MessageBuffer.length_active, drained]; rfl)]
    refine ⟨_, _, data, rfl, ?_, some⟩
    constructor
    case split => exact split
    case space => exact moved.emptied
    case agrees =>
      rw [Format.feedAll_payload progress short]
      exact ⟨⟨now, by rw [List.length_append]; exact short⟩, state, handed⟩
    case broken => exact fun _ => drained
    case returned => exact ⟨fun impossible => (by cases impossible), fun closed => by
      cases closed.symm.trans receiving.opened⟩
  · have full : received.length + data.length = size := by omega
    rw [if_neg (by omega)]
    refine ⟨_, _, data, rfl, ?_, some⟩
    constructor
    case split => exact split
    case space => exact moved.emptied
    case agrees =>
      rw [Format.feedAll_payload_complete progress missing full]
      have none : written.getRemainingSpace = 0 := by omega
      exact now.handled none state handed
    case broken => exact fun impossible => (by cases impossible)
    case returned => exact ⟨fun impossible => (by cases impossible), fun closed => by
      cases closed.symm.trans receiving.opened⟩

/-- A complete header is decoded as the format says. -/
theorem readHeaderHandler_eq (six : socket._headerBuffer.getActiveSize = 6)
    (payload : socket._packetBuffer._wpos = 0)
    : match host.format.decode socket.state socket._headerBuffer.active with
      | (state, none) =>
          socket.readHeaderHandler host = some ({ socket with state := state }, false)
      | (state, some (opcode, size)) =>
          ∃ headerBuffer packetBuffer,
            socket.readHeaderHandler host
              = some ({ socket with
                  state := state
                  _headerBuffer := headerBuffer
                  _packetBuffer := packetBuffer }, true)
            ∧ headerBuffer.getActiveSize = 6
            ∧ headerBuffer._storage.length = socket._headerBuffer._storage.length
            ∧ (ClientPktHeader.ofBytes headerBuffer.active).cmd = opcode
            ∧ packetBuffer._storage.length = size
            ∧ packetBuffer._wpos = 0 ∧ packetBuffer._rpos = 0 := by
  unfold readHeaderHandler Host.format
  rw [dif_pos six]
  dsimp only
  generalize decrypted : (if host.isInitialized socket.state = true then
      host.decryptRecv socket.state socket._headerBuffer.active
    else (socket._headerBuffer.active, socket.state)) = result
  by_cases malformed : (!(ClientPktHeader.ofBytes result.1).convertSize.isValidSize
      || !(ClientPktHeader.ofBytes result.1).convertSize.isValidOpcode) = true
  · rw [if_pos malformed, if_pos malformed]
  · rw [if_neg malformed, if_neg malformed]
    dsimp only
    obtain ⟨resized, resize, space, wpos, rpos⟩ := MessageBuffer.resize_eq payload
      ((ClientPktHeader.ofBytes result.1).convertSize.size - 4).toNat
    rw [resize]
    refine ⟨_, resized, rfl, six, MessageBuffer.length_overwrite _, ?_, space, wpos, rpos⟩
    rw [MessageBuffer.active_overwrite]
    exact ClientPktHeader.cmd_ofBytes_toBytes _

/-- An iteration while a header is awaited. -/
theorem Awaiting.iterate {received : List (BitVec 8)} (awaiting : socket.Awaiting received)
    (missing : received.length < 6) (progress : reader.progress = .header received)
    (state : socket.state = reader.state) (handed : socket.handed = reader.frames)
    (nonempty : socket._readBuffer.active ≠ [])
    : ∃ next flow consumed, socket.iterate host = some (next, flow)
      ∧ socket.Advanced next flow consumed (host.format.feedAll reader consumed)
      ∧ consumed ≠ [] := by
  have remaining : socket._headerBuffer.getRemainingSpace = 6 - received.length := by
    rw [MessageBuffer.remaining_eq awaiting.start, awaiting.space, awaiting.header]
  obtain ⟨data, written, read, write, complete, split, count, active, moved⟩ :=
    MessageBuffer.transfer socket._readBuffer socket._headerBuffer
  rw [awaiting.header] at active
  rw [remaining] at count
  have pos := List.length_pos_of_ne_nil nonempty
  rw [MessageBuffer.length_active] at pos
  have some : data ≠ [] := by
    rintro rfl
    rw [List.length_nil] at count
    omega
  have start : written._rpos = 0 := moved.start.trans awaiting.start
  have space : written._storage.length = 6 := moved.filled.trans awaiting.space
  have left : written.getRemainingSpace = 6 - (received.length + data.length) := by
    rw [MessageBuffer.remaining_eq start, space, active, List.length_append]
  unfold WorldSocket.iterate
  dsimp only
  rw [if_pos (by omega), write, complete]
  dsimp only [Option.bind_eq_bind, Option.bind_some]
  by_cases short : received.length + data.length < 6
  · have drained : read.active = [] := by
      have total := congrArg List.length split
      rw [List.length_append, MessageBuffer.length_active] at total
      exact List.length_eq_zero_iff.mp (by omega)
    rw [if_pos (by omega), if_pos (by rw [← MessageBuffer.length_active, drained]; rfl)]
    refine ⟨_, _, data, rfl, ?_, some⟩
    constructor
    case split => exact split
    case space => exact moved.emptied
    case agrees =>
      rw [Format.feedAll_header progress short]
      exact ⟨⟨⟨awaiting.opened, start, space, active, awaiting.payload⟩,
        by rw [List.length_append]; exact short⟩, state, handed⟩
    case broken => exact fun _ => drained
    case returned => exact ⟨fun impossible => (by cases impossible), fun closed => by
      cases closed.symm.trans awaiting.opened⟩
  · have full : received.length + data.length = 6 := by omega
    rw [if_neg (by omega)]
    have six : written.getActiveSize = 6 := by
      rw [← MessageBuffer.length_active, active, List.length_append, full]
    have header := @readHeaderHandler_eq σ host
      { socket with _headerBuffer := written, _readBuffer := read } six awaiting.payload
    have fed : host.format.feedAll reader data = host.format.decodeTo reader (received ++ data) :=
      Format.feedAll_header_complete progress missing full
    dsimp only at header
    rw [active, state] at header
    unfold Format.decodeTo at fed
    generalize host.format.decode reader.state (received ++ data) = decoded at header fed
    obtain ⟨after, _ | ⟨opcode, size⟩⟩ := decoded
    · dsimp only at header fed
      rw [state, header]
      dsimp only [Option.bind_some]
      rw [if_neg Bool.false_ne_true]
      refine ⟨_, _, data, rfl, ?_, some⟩
      rw [fed]
      exact ⟨split, moved.emptied, ⟨rfl, rfl, handed⟩, fun impossible => (by cases impossible),
        ⟨fun _ => rfl, fun _ => rfl⟩⟩
    · dsimp only at header fed
      obtain ⟨headerBuffer, packetBuffer, header, six', space', cmd, size', wpos, rpos⟩ := header
      rw [state, header]
      dsimp only [Option.bind_some]
      rw [if_pos rfl]
      have now : ({ socket with
          _headerBuffer := headerBuffer
          _readBuffer := read
          _packetBuffer := packetBuffer
          state := after } : WorldSocket σ).Receiving opcode size [] := {
        opened := awaiting.opened
        header := ⟨six', space'.trans space⟩
        opcode := cmd
        start := rpos
        space := size'
        payload := MessageBuffer.active_eq_nil.mpr (wpos.trans rpos.symm)
      }
      by_cases zero : size = 0
      · rw [if_pos zero] at fed
        have none : packetBuffer.getRemainingSpace = 0 := by
          rw [MessageBuffer.getRemainingSpace, size', zero, Nat.zero_sub]
        unfold WorldSocket.readPayload
        dsimp only
        rw [if_neg none.not_gt]
        refine ⟨_, _, data, rfl, ?_, some⟩
        rw [fed]
        exact ⟨split, moved.emptied, now.handled none rfl handed, fun impossible => (by
          cases impossible), fun impossible => (by cases impossible), fun closed => by
          cases closed.symm.trans awaiting.opened⟩
      · rw [if_neg zero] at fed
        obtain ⟨next, flow, consumed, run, advanced, -⟩ :=
          @Receiving.readPayload σ host _ ⟨.payload opcode size [], after, reader.frames⟩ opcode
            size [] now (Nat.pos_of_ne_zero zero) rfl rfl handed
        refine ⟨next, flow, data ++ consumed, run, ?_,
          List.append_ne_nil_of_left_ne_nil some consumed⟩
        rw [Format.feedAll_append, fed]
        exact {
          advanced with
          split := by rw [List.append_assoc, ← advanced.split]; exact split
          space := advanced.space.trans moved.emptied
        }

/-- An iteration of the loop that has something to read reads on.
Witness: a header is awaited, or a payload is not complete.
-/
theorem Matches.iterate (agrees : socket.Matches reader) (opened : socket.closed = false)
    (nonempty : socket._readBuffer.active ≠ [])
    : ∃ next flow consumed, socket.iterate host = some (next, flow)
      ∧ socket.Advanced next flow consumed (host.format.feedAll reader consumed)
      ∧ consumed ≠ [] := by
  obtain ⟨holds, state, handed⟩ := agrees
  cases progress : reader.progress with
  | header received =>
      rw [progress] at holds
      exact holds.1.iterate holds.2 progress state handed nonempty
  | payload opcode size received =>
      rw [progress] at holds
      obtain ⟨next, flow, consumed, run, advanced, some⟩ :=
        @Receiving.readPayload σ host _ _ _ _ _ holds.1 holds.2 progress state handed
      refine ⟨next, flow, consumed, ?_, advanced, some nonempty⟩
      unfold WorldSocket.iterate
      have full : socket._headerBuffer.getRemainingSpace = 0 := by
        have size := holds.1.header
        have order := socket._headerBuffer.rpos_le
        have within := socket._headerBuffer.wpos_le
        unfold MessageBuffer.getRemainingSpace
        unfold MessageBuffer.getActiveSize at size
        omega
      rw [if_neg full.not_gt]
      exact run
  | rejected =>
      rw [progress] at holds
      cases holds.symm.trans opened

-- Reads

/-- Between two reads: the read buffer is empty, from its start, and all its space is left. -/
structure Ready (socket : WorldSocket σ) (reader : Reader σ (BitVec 8) (BitVec 32)) : Prop where
  agrees : socket.Matches reader
  space : socket._readBuffer._storage.length = 4096
  drained : socket.closed = false → socket._readBuffer._wpos = 0

/-- The read buffer does not matter for what has been read of it. -/
theorem Matches.setReadBuffer (agrees : socket.Matches reader) (buffer : MessageBuffer)
    : Matches { socket with _readBuffer := buffer } reader := by
  obtain ⟨holds, state, handed⟩ := agrees
  refine ⟨?_, state, handed⟩
  cases progress : reader.progress with
  | header received =>
      rw [progress] at holds
      exact ⟨{ holds.1 with }, holds.2⟩
  | payload opcode size received =>
      rw [progress] at holds
      exact ⟨{ holds.1 with }, holds.2⟩
  | rejected =>
      rw [progress] at holds
      exact holds

/-- Only a header that was rejected closes the socket. -/
theorem Matches.rejected (agrees : socket.Matches reader) (closed : socket.closed = true)
    : reader.progress = .rejected := by
  have holds := agrees.holds
  cases progress : reader.progress with
  | header received =>
      rw [progress] at holds
      cases holds.1.opened.symm.trans closed
  | payload opcode size received =>
      rw [progress] at holds
      cases holds.1.opened.symm.trans closed
  | rejected => rfl

/-- A read is prepared when everything has been read. -/
theorem Matches.asyncRead (agrees : socket.Matches reader)
    (space : socket._readBuffer._storage.length = 4096) (drained : socket._readBuffer.active = [])
    : socket.asyncRead.Ready reader := by
  unfold WorldSocket.asyncRead
  split
  · next closed =>
      exact ⟨agrees, space, fun opened => by cases closed.symm.trans opened⟩
  · have start : socket._readBuffer.getActiveSize = 0 := by
      rw [← MessageBuffer.length_active, drained]
      rfl
    have free : 0 < socket._readBuffer.normalize.getRemainingSpace := by
      rw [MessageBuffer.getRemainingSpace, MessageBuffer.length_normalize, space,
        MessageBuffer.wpos_normalize, start]
      decide
    rw [MessageBuffer.ensureFreeSpace_eq free]
    exact ⟨agrees.setReadBuffer _,
      MessageBuffer.length_normalize.trans space, fun _ => start⟩

/-- The loop reads all that there is as frames, within as many iterations as there are bytes.
Witness: induction on the iterations that are left; each consumes some bytes.
-/
theorem Matches.readLoop (fuel : Nat) (agrees : socket.Matches reader)
    (opened : socket.closed = false) (space : socket._readBuffer._storage.length = 4096)
    (enough : socket._readBuffer.getActiveSize ≤ fuel)
    : ∃ next, socket.readLoop host fuel = some next
      ∧ next.Ready (host.format.feedAll reader socket._readBuffer.active) := by
  induction fuel generalizing socket reader with
  | zero =>
      have none : socket._readBuffer.getActiveSize = 0 := Nat.le_zero.mp enough
      have drained : socket._readBuffer.active = [] :=
        List.length_eq_zero_iff.mp (MessageBuffer.length_active.trans none)
      unfold WorldSocket.readLoop
      rw [if_pos none, drained]
      exact ⟨_, rfl, agrees.asyncRead space drained⟩
  | succ fuel ih =>
      unfold WorldSocket.readLoop
      by_cases none : socket._readBuffer.getActiveSize = 0
      · have drained : socket._readBuffer.active = [] :=
          List.length_eq_zero_iff.mp (MessageBuffer.length_active.trans none)
        rw [if_pos none, drained]
        exact ⟨_, rfl, agrees.asyncRead space drained⟩
      · have nonempty : socket._readBuffer.active ≠ [] := by
          intro drained
          exact none (MessageBuffer.length_active.symm.trans (by rw [drained]; rfl))
        obtain ⟨next, flow, consumed, run, advanced, some⟩ :=
          @Matches.iterate σ host _ _ agrees opened nonempty
        rw [if_neg none]
        dsimp only
        rw [run]
        dsimp only [Option.bind_eq_bind, Option.bind_some]
        rw [advanced.split, Format.feedAll_append]
        cases flow with
        | continues =>
            have stays : next.closed = false := by
              rw [← Bool.not_eq_true]
              exact fun closed => by cases advanced.returned.mpr closed
            have fewer : next._readBuffer.getActiveSize ≤ fuel := by
              have total := congrArg List.length advanced.split
              have pos := List.length_pos_of_ne_nil some
              rw [List.length_append, MessageBuffer.length_active,
                MessageBuffer.length_active] at total
              omega
            exact ih advanced.agrees stays (advanced.space.trans space) fewer
        | breaks =>
            have drained := advanced.broken rfl
            rw [drained]
            exact ⟨_, rfl, advanced.agrees.asyncRead (advanced.space.trans space) drained⟩
        | returns =>
            have closed := advanced.returned.mp rfl
            refine ⟨next, rfl, ?_, advanced.space.trans space,
              fun opened => (by cases closed.symm.trans opened)⟩
            rw [Format.feedAll_rejected (advanced.agrees.rejected closed)]
            exact advanced.agrees

/-- A read takes what it may of the stream, and reads it as frames. -/
theorem Ready.receive (ready : socket.Ready reader) (stream : List (BitVec 8)) (size : Nat)
    : ∃ next rest consumed, socket.receive host stream size = some (next, rest)
      ∧ stream = consumed ++ rest
      ∧ next.Ready (host.format.feedAll reader consumed)
      ∧ (next.closed = false → socket.closed = false ∧ consumed = stream.take (min size 4096)) := by
  unfold WorldSocket.receive
  split
  · next closed =>
      exact ⟨_, _, [], rfl, rfl, ready, fun opened => by cases closed.symm.trans opened⟩
  · next opened =>
      have opened := Bool.not_eq_true _ |>.mp opened
      have start := ready.drained opened
      have space : socket._readBuffer.getRemainingSpace = 4096 := by
        rw [MessageBuffer.getRemainingSpace, ready.space, start]
      have drained : socket._readBuffer.active = [] := by
        have order := socket._readBuffer.rpos_le
        exact MessageBuffer.active_eq_nil.mpr (by omega)
      dsimp only
      rw [space]
      obtain ⟨written, write, active, size', -⟩ := @MessageBuffer.write_eq socket._readBuffer
        (stream.take (min size 4096)) (by
          rw [space, List.length_take]
          exact (Nat.min_le_left ..).trans (Nat.min_le_right ..))
      rw [drained, List.nil_append] at active
      obtain ⟨next, run, after⟩ := @Matches.readLoop σ host _ _ written.getActiveSize
        (ready.agrees.setReadBuffer written) opened (size'.trans ready.space) le_rfl
      dsimp only at after
      rw [active] at after
      refine ⟨next, _, _, ?_, (List.take_append_drop _ stream).symm, after, fun _ => ⟨opened, rfl⟩⟩
      unfold readHandlerInternal readHandler
      rw [write]
      dsimp only [Option.bind_eq_bind, Option.bind_some]
      rw [if_neg (by rw [opened]; exact Bool.false_ne_true), run]
      rfl

/-- Reads take what they may of the stream, and read it as frames. -/
theorem Ready.receiveAll (sizes : List Nat) (ready : socket.Ready reader)
    (stream : List (BitVec 8))
    : ∃ next rest consumed, socket.receiveAll host stream sizes = some (next, rest)
      ∧ stream = consumed ++ rest
      ∧ next.Ready (host.format.feedAll reader consumed)
      ∧ (next.closed = false → socket.closed = false
        ∧ consumed = stream.take (sizes.map (min · 4096)).sum) := by
  induction sizes generalizing socket reader stream with
  | nil => exact ⟨socket, stream, [], rfl, rfl, ready, fun opened => ⟨opened, rfl⟩⟩
  | cons size sizes ih =>
      obtain ⟨next, rest, first, run, split, ready', taken⟩ :=
        @Ready.receive σ host _ _ ready stream size
      obtain ⟨last, rest', later, run', split', ready'', taken'⟩ := ih ready' rest
      refine ⟨last, rest', first ++ later, ?_, ?_, ?_, ?_⟩
      · unfold WorldSocket.receiveAll
        rw [run]
        exact run'
      · rw [List.append_assoc, ← split', ← split]
      · rw [Format.feedAll_append]
        exact ready''
      · intro opened
        obtain ⟨between, later_eq⟩ := taken' opened
        obtain ⟨before, first_eq⟩ := taken between
        refine ⟨before, ?_⟩
        have rest_eq : rest = stream.drop (min size 4096) := by
          rw [first_eq] at split
          exact List.append_cancel_left (split.symm.trans (List.take_append_drop _ _).symm)
        rw [later_eq, rest_eq, first_eq, List.map_cons, List.sum_cons, List.take_add]

end WorldSocket

-- The packets of a stream

/-- However the network splits the stream of a client into reads, no assertion fails, no buffer is
written or read past its end, and the packets that are handed over are those of the whole stream, as
far as it was read; the buffers hold what is known of the next packet.
-/
theorem packets_are_frames_of_stream (host : Host σ) (state : σ) (stream : List (BitVec 8))
    (sizes : List Nat)
    : ∃ socket rest consumed,
        WorldSocket.receiveAll host { state := state } stream sizes = some (socket, rest)
        ∧ stream = consumed ++ rest
        ∧ socket.handed = (host.format.parse state consumed).frames
        ∧ socket.state = (host.format.parse state consumed).state
        ∧ socket.Holds (host.format.parse state consumed).progress
        ∧ (socket.closed = false → consumed = stream.take (sizes.map (min · 4096)).sum) := by
  have ready : WorldSocket.Ready { state := state } ⟨.header [], state, []⟩ :=
    ⟨⟨⟨⟨rfl, rfl, rfl, rfl, rfl⟩, Nat.zero_lt_succ 5⟩, rfl, rfl⟩, List.length_replicate,
      fun _ => rfl⟩
  obtain ⟨socket, rest, consumed, run, split, after, taken⟩ :=
    @WorldSocket.Ready.receiveAll σ host _ _ sizes ready stream
  rw [Format.feedAll_eq_parse] at after
  exact ⟨socket, rest, consumed, run, split, after.agrees.handed, after.agrees.state,
    after.agrees.holds, fun opened => (taken opened).2⟩

-- A client and its server

/-- The header that a client sends before so many bytes, encrypted when the cipher is initialized;
the size counts the opcode.
-/
def Host.writeHeader (host : Host σ) (encrypt : σ → BitVec 8 → BitVec 8) (state : σ)
    (packet : BitVec 32 × Nat)
    : List (BitVec 8) :=
  let bytes := (ClientPktHeader.mk (BitVec.ofNat 16 (packet.2 + 4)) packet.1).convertSize.toBytes
  if host.isInitialized state then
    (StreamTransforms.transform
      (fun state byte => (encrypt state byte, (host.decrypt state (encrypt state byte)).2))
      state bytes).1
  else bytes

theorem ClientPktHeader.convertSize_ofBytes (header : ClientPktHeader)
    : (ofBytes header.convertSize.toBytes).convertSize = header := by
  have first (size : BitVec 16) : (LittleEndian.toBytes 2 size).length = 2 := by simp
  unfold ofBytes toBytes convertSize
  dsimp only
  rw [List.take_left' (first _), List.drop_left' (first _), List.take_of_length_le (by simp),
    LittleEndian.ofBytes_toBytes (by decide), LittleEndian.ofBytes_toBytes (by decide),
    LittleEndian.ofBytes_reverse_twice]

/-- The header of a packet that the server accepts is read as what it says. -/
theorem Host.decode_writeHeader {encrypt : σ → BitVec 8 → BitVec 8}
    (undone : ∀ state byte, (host.decrypt state (encrypt state byte)).1 = byte) (state : σ)
    (packet : BitVec 32 × Nat)
    (fits : packet.1.toNat < ClientPktHeader.NUM_OPCODE_HANDLERS ∧ packet.2 + 4 < 10240)
    : (host.writeHeader encrypt state packet).length = host.format.headerSize
      ∧ (host.format.decode state (host.writeHeader encrypt state packet)).2 = some packet := by
  obtain ⟨opcode, size⟩ := packet
  obtain ⟨known, small⟩ := fits
  have whole : (BitVec.ofNat 16 (size + 4)).toNat = size + 4 := by
    rw [BitVec.toNat_ofNat]
    omega
  have rest : (BitVec.ofNat 16 (size + 4) - 4).toNat = size := by bv_omega
  constructor
  · unfold Host.writeHeader ClientPktHeader.toBytes
    split <;> simp [Host.format]
  · obtain ⟨after, plain⟩ : ∃ after,
        (if host.isInitialized state then
            host.decryptRecv state (host.writeHeader encrypt state (opcode, size))
          else (host.writeHeader encrypt state (opcode, size), state))
          = ((ClientPktHeader.mk (BitVec.ofNat 16 (size + 4)) opcode).convertSize.toBytes, after)
        := by
      unfold Host.writeHeader Host.decryptRecv
      split
      · exact ⟨_, StreamTransforms.transform_undo
          (fun state byte => Prod.ext (undone state byte) rfl) _ _⟩
      · exact ⟨_, rfl⟩
    unfold Host.format
    dsimp only
    rw [plain]
    dsimp only
    rw [ClientPktHeader.convertSize_ofBytes]
    dsimp only
    rw [rest]
    simp [ClientPktHeader.isValidSize, ClientPktHeader.isValidOpcode, whole, small, known]

def Host.sent (host : Host σ) (encrypt : σ → BitVec 8 → BitVec 8) (state : σ)
    (packets : List (BitVec 32 × List (BitVec 8)))
    : List (BitVec 8) :=
  host.format.write (host.writeHeader encrypt) state packets

/-- A client that encrypts what the server decrypts and sends packets with known opcodes and less
than 10236 bytes is understood: however the network splits the stream, once all of it is read the
server has handled exactly these packets, in their order, and awaits the next header.
-/
theorem sent_packets_are_handled (host : Host σ) (encrypt : σ → BitVec 8 → BitVec 8)
    (undone : ∀ state byte, (host.decrypt state (encrypt state byte)).1 = byte) (state : σ)
    (packets : List (BitVec 32 × List (BitVec 8)))
    (accepted : ∀ packet ∈ packets,
      packet.1.toNat < ClientPktHeader.NUM_OPCODE_HANDLERS ∧ packet.2.length + 4 < 10240)
    (sizes : List Nat)
    (all : (host.sent encrypt state packets).length ≤ (sizes.map (min · 4096)).sum)
    : ∃ socket,
        WorldSocket.receiveAll host { state := state } (host.sent encrypt state packets) sizes
          = some (socket, [])
        ∧ socket.handed = packets ∧ socket.Awaiting [] := by
  have ready : WorldSocket.Ready { state := state } ⟨.header [], state, []⟩ :=
    ⟨⟨⟨⟨rfl, rfl, rfl, rfl, rfl⟩, Nat.zero_lt_succ 5⟩, rfl, rfl⟩, List.length_replicate,
      fun _ => rfl⟩
  obtain ⟨waiting, frames⟩ := Format.parse_write (Host.decode_writeHeader undone) accepted state
  have whole := @Format.feedAll_eq_parse _ _ _ host.format state [] (host.sent encrypt state packets)
  change (host.format.parse state (host.sent encrypt state packets)).progress = _ at waiting
  change (host.format.parse state (host.sent encrypt state packets)).frames = _ at frames
  generalize host.sent encrypt state packets = stream at waiting frames whole all ⊢
  obtain ⟨socket, rest, consumed, run, split, after, taken⟩ :=
    @WorldSocket.Ready.receiveAll σ host _ _ sizes ready stream
  -- A rejected header would stay rejected to the end of the stream.
  have opened : socket.closed = false := by
    rw [← Bool.not_eq_true]
    intro closed
    have rejected := after.agrees.rejected closed
    rw [split, Format.feedAll_append, Format.feedAll_rejected rejected] at whole
    rw [whole, ← split, waiting] at rejected
    cases rejected
  have read : consumed = stream := by
    rw [(taken opened).2, List.take_of_length_le all]
  subst read
  obtain rfl : rest = [] := List.append_right_eq_self.mp split.symm
  rw [whole] at after
  have holds := after.agrees.holds
  dsimp only at holds
  rw [waiting] at holds
  exact ⟨socket, run, after.agrees.handed.trans frames, holds.1⟩

def xorHost : Host (BitVec 8) where
  isInitialized := fun key => key ≠ 0
  decrypt := fun key byte => (byte ^^^ key, key + 5)
  readData := fun key _ _ => key + 1

/-- A packet in the clear, whose handler initializes the cipher, and another one, in three reads. -/
theorem sent_packets_are_handled_applied
    : ∃ socket,
        WorldSocket.receiveAll xorHost { state := 0 }
            [0, 6, 0x37, 0, 0, 0, 7, 8, 1, 2, 0x9E, 0x10, 0x15, 0x1A] [3, 9, 9]
          = some (socket, [])
        ∧ socket.handed = [(0x37, [7, 8]), (0x95, [])] ∧ socket.Awaiting [] :=
  sent_packets_are_handled xorHost (fun key byte => byte ^^^ key)
    (fun key byte => by simp [xorHost, BitVec.xor_assoc]) 0 [(0x37, [7, 8]), (0x95, [])]
    (by decide) [3, 9, 9] (by decide)

end WarheadCore.Sockets.Inbound
