import Mathlib.Data.List.Basic

/-! Streams of frames: a header of a fixed size that tells the size of the payload after it.
A stream may be read at once or symbol by symbol, with the same frames.
-/

namespace Foundation.Framing

variable {σ α μ : Type*}

/-- How frames are read: a header is decoded, from a state, into what it says and the size of the
payload, or it is rejected; a frame that is complete changes the state.
-/
structure Format (σ α μ : Type*) where
  headerSize : Nat
  headerSize_pos : 0 < headerSize
  decode : σ → List α → σ × Option (μ × Nat)
  deliver : σ → μ → List α → σ

/-- What is known of the frame that is not complete yet. -/
inductive Progress (α μ : Type*) where
  | header (received : List α)
  | payload (info : μ) (size : Nat) (received : List α)
  | rejected

structure Reader (σ α μ : Type*) where
  progress : Progress α μ := .header []
  state : σ
  frames : List (μ × List α) := []

namespace Format

variable (format : Format σ α μ)

-- One symbol after the other

def deliverTo (reader : Reader σ α μ) (info : μ) (payload : List α) : Reader σ α μ where
  progress := .header []
  state := format.deliver reader.state info payload
  frames := reader.frames ++ [(info, payload)]

/-- A header is complete. A payload without symbols is complete at once. -/
def decodeTo (reader : Reader σ α μ) (header : List α) : Reader σ α μ :=
  match format.decode reader.state header with
  | (state, none) => { reader with progress := .rejected, state := state }
  | (state, some (info, size)) =>
      if size = 0 then format.deliverTo { reader with state := state } info []
      else { reader with progress := .payload info size [], state := state }

def feed (reader : Reader σ α μ) (symbol : α) : Reader σ α μ :=
  match reader.progress with
  | .header received =>
      if received.length + 1 < format.headerSize then
        { reader with progress := .header (received ++ [symbol]) }
      else format.decodeTo reader (received ++ [symbol])
  | .payload info size received =>
      if received.length + 1 < size then
        { reader with progress := .payload info size (received ++ [symbol]) }
      else format.deliverTo reader info (received ++ [symbol])
  | .rejected => reader

def feedAll (reader : Reader σ α μ) (symbols : List α) : Reader σ α μ :=
  symbols.foldl format.feed reader

variable {format}

/-- How the symbols are split does not matter. -/
theorem feedAll_append (reader : Reader σ α μ) (first later : List α)
    : format.feedAll reader (first ++ later) = format.feedAll (format.feedAll reader first) later :=
  List.foldl_append

/-- A reader that has rejected a header takes nothing more. -/
theorem feedAll_rejected {reader : Reader σ α μ} (rejected : reader.progress = .rejected)
    (symbols : List α)
    : format.feedAll reader symbols = reader := by
  induction symbols with
  | nil => rfl
  | cons symbol rest ih =>
      have same : format.feed reader symbol = reader := by
        unfold feed
        rw [rejected]
      rw [feedAll, List.foldl_cons, same]
      exact ih

section Keeps

variable {keep : List α → Progress α μ} {size : Nat}
  (keeps : ∀ (reader : Reader σ α μ) received symbol, reader.progress = keep received →
    received.length + 1 < size →
    format.feed reader symbol = { reader with progress := keep (received ++ [symbol]) })
  {reader : Reader σ α μ} {received symbols : List α} (progress : reader.progress = keep received)

include keeps progress

/-- A reader that keeps each symbol but the last one of a part keeps all that do not complete it. -/
theorem feedAll_keeps (few : received.length + symbols.length < size)
    : format.feedAll reader symbols = { reader with progress := keep (received ++ symbols) } := by
  induction symbols generalizing reader received with
  | nil => rw [List.append_nil, ← progress]; rfl
  | cons symbol rest ih =>
      rw [List.length_cons] at few
      have more : (received ++ [symbol]).length + rest.length < size := by
        rw [List.length_append, List.length_singleton]
        omega
      rw [feedAll, List.foldl_cons, keeps reader received symbol progress (by omega)]
      exact (ih rfl more).trans (by rw [List.append_assoc, List.singleton_append])

/-- The symbols that complete the part are its last one, after those that are kept. -/
theorem feedAll_completes (missing : received.length < size)
    (complete : received.length + symbols.length = size)
    : ∃ first last, received ++ symbols = first ++ [last] ∧ first.length + 1 = size
      ∧ format.feedAll reader symbols = format.feed { reader with progress := keep first } last := by
  obtain ⟨first, last, rfl⟩ := List.eq_nil_or_concat symbols |>.resolve_left
    (fun empty => by rw [empty, List.length_nil] at complete; omega)
  rw [List.concat_eq_append, List.length_append, List.length_singleton] at complete
  refine ⟨received ++ first, last, by rw [List.concat_eq_append, List.append_assoc],
    by rw [List.length_append]; omega, ?_⟩
  rw [List.concat_eq_append, feedAll_append, feedAll_keeps keeps progress (by omega)]
  rfl

end Keeps

theorem feed_header (reader : Reader σ α μ) (received : List α) (symbol : α)
    (progress : reader.progress = .header received) (few : received.length + 1 < format.headerSize)
    : format.feed reader symbol = { reader with progress := .header (received ++ [symbol]) } := by
  unfold feed
  rw [progress]
  exact if_pos few

theorem feed_payload {info : μ} {size : Nat} (reader : Reader σ α μ) (received : List α)
    (symbol : α) (progress : reader.progress = .payload info size received)
    (few : received.length + 1 < size)
    : format.feed reader symbol
      = { reader with progress := .payload info size (received ++ [symbol]) } := by
  unfold feed
  rw [progress]
  exact if_pos few

/-- Symbols that do not complete the header are kept. -/
theorem feedAll_header {reader : Reader σ α μ} {received : List α}
    (progress : reader.progress = .header received) {symbols : List α}
    (few : received.length + symbols.length < format.headerSize)
    : format.feedAll reader symbols
      = { reader with progress := .header (received ++ symbols) } :=
  feedAll_keeps feed_header progress few

/-- Symbols that complete the header are decoded. -/
theorem feedAll_header_complete {reader : Reader σ α μ} {received : List α}
    (progress : reader.progress = .header received) {symbols : List α}
    (missing : received.length < format.headerSize)
    (complete : received.length + symbols.length = format.headerSize)
    : format.feedAll reader symbols = format.decodeTo reader (received ++ symbols) := by
  obtain ⟨first, last, whole, full, fed⟩ :=
    feedAll_completes feed_header progress missing complete
  rw [fed, whole]
  exact if_neg (by omega)

/-- Symbols that do not complete the payload are kept. -/
theorem feedAll_payload {reader : Reader σ α μ} {info : μ} {size : Nat} {received : List α}
    (progress : reader.progress = .payload info size received) {symbols : List α}
    (few : received.length + symbols.length < size)
    : format.feedAll reader symbols
      = { reader with progress := .payload info size (received ++ symbols) } :=
  feedAll_keeps feed_payload progress few

/-- Symbols that complete the payload are delivered with it. -/
theorem feedAll_payload_complete {reader : Reader σ α μ} {info : μ} {size : Nat}
    {received : List α} (progress : reader.progress = .payload info size received)
    {symbols : List α} (missing : received.length < size)
    (complete : received.length + symbols.length = size)
    : format.feedAll reader symbols = format.deliverTo reader info (received ++ symbols) := by
  obtain ⟨first, last, whole, full, fed⟩ :=
    feedAll_completes feed_payload progress missing complete
  rw [fed, whole]
  exact if_neg (by omega)

-- The whole stream at once

variable (format)

/-- The frames of a stream: a header, its payload, and the frames of the rest. -/
def parse (state : σ) (stream : List α) : Reader σ α μ :=
  if stream.length < format.headerSize then { progress := .header stream, state := state }
  else
    match format.decode state (stream.take format.headerSize) with
    | (state, none) => { progress := .rejected, state := state }
    | (state, some (info, size)) =>
        let rest := stream.drop format.headerSize
        if rest.length < size then { progress := .payload info size rest, state := state }
        else
          let payload := rest.take size
          let tail := parse (format.deliver state info payload) (rest.drop size)
          { tail with frames := (info, payload) :: tail.frames }
termination_by stream.length
decreasing_by
  have pos := format.headerSize_pos
  simp only [List.length_drop]
  omega

variable {format}

/-- Reading symbol by symbol finds the frames of the whole stream.
Witness: strong induction on the length of the stream, along its first frame.
-/
theorem feedAll_eq_parse (state : σ) (frames : List (μ × List α)) (stream : List α)
    : format.feedAll ⟨.header [], state, frames⟩ stream
      = { format.parse state stream with
          frames := frames ++ (format.parse state stream).frames } := by
  induction size : stream.length using Nat.strongRecOn generalizing state frames stream with
  | ind count ih =>
    subst size
    have pos := format.headerSize_pos
    rw [parse]
    split
    · next few =>
        rw [feedAll_header rfl (by rw [List.length_nil]; omega)]
        simp only [List.append_nil, List.nil_append]
    · next enough =>
        have length : (stream.take format.headerSize).length = format.headerSize :=
          List.length_take_of_le (Nat.not_lt.mp enough)
        have started : (⟨.header [], state, frames⟩ : Reader σ α μ).progress = .header [] := rfl
        have decoded : format.feedAll ⟨.header [], state, frames⟩ (stream.take format.headerSize)
            = format.decodeTo ⟨.header [], state, frames⟩ (stream.take format.headerSize) :=
          feedAll_header_complete started pos ((Nat.zero_add _).trans length)
        conv_lhs => rw [← List.take_append_drop format.headerSize stream]
        rw [feedAll_append, decoded, decodeTo]
        dsimp only
        rcases format.decode state (stream.take format.headerSize) with ⟨after, _ | ⟨info, size⟩⟩
        · rw [feedAll_rejected rfl]
          simp only [List.append_nil]
        · dsimp only
          have smaller : (stream.drop format.headerSize).length < stream.length := by
            rw [List.length_drop]
            omega
          generalize stream.drop format.headerSize = rest at smaller ⊢
          have later (next : σ) (payload : List α)
              := ih (rest.drop size).length (by rw [List.length_drop]; omega) next
                (frames ++ [(info, payload)]) (rest.drop size) rfl
          split
          · next empty =>
              subst empty
              rw [if_neg (Nat.not_lt_zero _)]
              simp only [List.take_zero, List.drop_zero] at later ⊢
              refine (later (format.deliver after info []) []).trans ?_
              simp only [List.append_assoc, List.singleton_append]
          · next some =>
              split
              · next few =>
                  rw [feedAll_payload rfl (by rw [List.length_nil]; omega)]
                  simp only [List.append_nil, List.nil_append]
              · next enough' =>
                  have length' : (rest.take size).length = size :=
                    List.length_take_of_le (Nat.not_lt.mp enough')
                  have started : (⟨.payload info size [], after, frames⟩ : Reader σ α μ).progress
                      = .payload info size [] := rfl
                  have delivered
                      : format.feedAll ⟨.payload info size [], after, frames⟩ (rest.take size)
                        = format.deliverTo ⟨.payload info size [], after, frames⟩ info
                            (rest.take size) :=
                    feedAll_payload_complete started (Nat.pos_of_ne_zero some)
                      ((Nat.zero_add _).trans length')
                  conv_lhs => rw [← List.take_append_drop size rest]
                  rw [feedAll_append, delivered]
                  refine (later _ _).trans ?_
                  simp only [List.append_assoc, List.singleton_append]

-- Writing

variable (format)

/-- The stream of frames, each header written from the state in which it will be read. -/
def write (header : σ → μ × Nat → List α) : σ → List (μ × List α) → List α
  | _, [] => []
  | state, (info, payload) :: rest =>
      let written := header state (info, payload.length)
      written ++ payload
        ++ write header (format.deliver (format.decode state written).1 info payload) rest

variable {format}

/-- Frames that are written with headers that are decoded again are read back, and nothing is left
over. Witness: induction on the frames; the first one is read whole.
-/
theorem parse_write {header : σ → μ × Nat → List α} {fits : μ × Nat → Prop}
    (read : ∀ state frame, fits frame → (header state frame).length = format.headerSize
      ∧ (format.decode state (header state frame)).2 = some frame)
    {frames : List (μ × List α)} (fit : ∀ frame ∈ frames, fits (frame.1, frame.2.length))
    (state : σ)
    : (format.parse state (format.write header state frames)).progress = .header []
      ∧ (format.parse state (format.write header state frames)).frames = frames := by
  induction frames generalizing state with
  | nil =>
      rw [write, parse, if_pos (by simpa using format.headerSize_pos)]
      exact ⟨rfl, rfl⟩
  | cons frame rest ih =>
      obtain ⟨info, payload⟩ := frame
      obtain ⟨length, decoded⟩ := read state _ (fit _ List.mem_cons_self)
      have later := ih (fun frame member => fit frame (List.mem_cons_of_mem _ member))
        (format.deliver (format.decode state (header state (info, payload.length))).1 info payload)
      rw [write, parse, if_neg (by simp only [List.length_append, length]; omega), List.append_assoc,
        List.take_left' length, List.drop_left' length]
      generalize format.decode state (header state (info, payload.length)) = result
        at decoded later ⊢
      obtain ⟨after, _⟩ := result
      cases decoded
      dsimp only
      rw [if_neg (by simp only [List.length_append]; omega), List.take_left, List.drop_left]
      exact ⟨later.1, congrArg _ later.2⟩

end Format

end Foundation.Framing
