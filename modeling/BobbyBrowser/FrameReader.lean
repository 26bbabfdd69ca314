/-
The frames a connection is read as, `mcp-gateway/src/server/mod.rs`.

`serve` polls `read_bounded_frame` inside `select!`, which drops the read
whenever another branch wins. A read has one await, so it can only be dropped
between two turns of its loop, and what it has consumed by then lives in the
`FrameBuffer` that the next call takes up. A run is therefore a list of events:
`fill` is one turn, on whatever the input has buffered by then, and `drop` gives
the read up and starts the next one. What the input has buffered is any
nonempty first part of the bytes that are left, and nothing only at their end,
so the events cover every way a stream arrives.
-/
import BobbyBrowser.Lines

set_option autoImplicit false

namespace BobbyBrowser.FrameReader

open List
open Lines (Bytes newline lines split_append split_append_glued split_append_torn)

def MAX_FRAME_BYTES : ℕ := 1024 * 1024

/-- `b'\r'`. -/
abbrev carriage_return : UInt8 := 13

inductive FrameStatus
  | Eof
  | Complete
  | Oversized
  deriving DecidableEq

structure FrameBuffer where
  bytes : Bytes := []
  oversized : Bool := false
  finished : Bool := false

variable (frame : FrameBuffer)

/-- What `read_bounded_frame` does before its loop. -/
def FrameBuffer.resume : FrameBuffer := if frame.finished then {} else frame

/-- The payload is added to the frame, unless the two are too long. -/
def FrameBuffer.extend (payload : Bytes) : FrameBuffer :=
  if frame.oversized then frame
  else if frame.bytes.length + payload.length > MAX_FRAME_BYTES then
    { frame with oversized := true, bytes := [] }
  else { frame with bytes := frame.bytes ++ payload }

/-- One carriage return at the end is taken off. -/
def pop_return (bytes : Bytes) : Bytes :=
  if bytes.getLast? = some carriage_return then bytes.dropLast else bytes

/-- One turn of the loop on what `fill_buf` gives: the frame, how many bytes are
consumed and, if the call returns, its status. -/
def turn (available : Bytes) : FrameBuffer × ℕ × Option FrameStatus :=
  if available = [] then
    ({ frame with finished := true }, 0,
      some (if frame.oversized then .Oversized else if frame.bytes = [] then .Eof else .Complete))
  else
    match available.findIdx? (· == newline) with
    | none => (frame.extend available, available.length, none)
    | some index =>
      let frame := frame.extend (available.take index)
      if frame.oversized then ({ frame with finished := true }, index + 1, some .Oversized)
      else
        ({ frame with finished := true, bytes := pop_return frame.bytes }, index + 1,
          some .Complete)

/-- What the connection is handed for one frame. -/
inductive Frame
  | complete (bytes : Bytes)
  | oversized
  deriving DecidableEq

/-- A connection that reads: the bytes it has not consumed and what its reads
have returned. It stops at the first `Eof`. -/
structure Reader where
  frame : FrameBuffer := {}
  rest : Bytes
  frames : List Frame := []
  ended : Bool := false

inductive Event
  /-- The input has one byte and up to `more` others, or is at its end. -/
  | fill (more : ℕ)
  | drop

def Event.is_fill : Event → Bool
  | .fill _ => true
  | .drop => false

/-- How often the input is polled in a run. -/
def fills (events : List Event) : ℕ := events.countP Event.is_fill

/-- What the status of a read hands to the connection. -/
def handed : Option FrameStatus → List Frame
  | some .Complete => [.complete frame.bytes]
  | some .Oversized => [.oversized]
  | _ => []

/-- What `serve` does after a turn. -/
def Reader.turned (reader : Reader) (out : FrameBuffer × ℕ × Option FrameStatus) : Reader where
  frame := out.1
  rest := reader.rest.drop out.2.1
  frames := reader.frames ++ handed out.1 out.2.2
  ended := out.2.2 = some .Eof

def Reader.step (reader : Reader) : Event → Reader
  | .drop => { reader with frame := reader.frame.resume }
  | .fill more =>
    if reader.ended then reader
    else reader.turned (turn reader.frame.resume (reader.rest.take (more + 1)))

/-- A connection to a client that sends `stream`. -/
def serve (stream : Bytes) (events : List Event) : Reader :=
  events.foldl Reader.step { rest := stream }

/-! ## The lines of a stream -/

/-- The frame of a line that is too long or has this payload. -/
def bounded (line payload : Bytes) : Frame :=
  if line.length > MAX_FRAME_BYTES then .oversized else .complete payload

/-- A line without its newline and one carriage return before it. -/
def line_frame (line : Bytes) : Frame := bounded line.dropLast (pop_return line.dropLast)

/-- What follows the last newline is a frame as it is, if there is anything. -/
def tail_frames (tail : Bytes) : List Frame := if tail = [] then [] else [bounded tail tail]

def frames_of (stream : Bytes) : List Frame :=
  (lines stream).map line_frame ++ tail_frames (Lines.tail stream)

variable {raw payload rest stream : Bytes} {reader : Reader}

/-! ## A line in parts -/

/-- The frame that the part `raw` of a line leaves. -/
def held (raw : Bytes) : FrameBuffer :=
  if raw.length > MAX_FRAME_BYTES then { oversized := true } else { bytes := raw }

theorem resume_held : (held raw).resume = held raw := by
  unfold held
  split <;> rfl

/-- However a line is cut, its length is judged as a whole. -/
theorem extend_held : (held raw).extend payload = held (raw ++ payload) := by
  unfold held FrameBuffer.extend
  rw [length_append]
  by_cases hraw : raw.length > MAX_FRAME_BYTES
  · rw [if_pos hraw, if_pos rfl, if_pos (by omega)]
  · rw [if_neg hraw]
    rfl

theorem length_held : (held raw).bytes.length ≤ MAX_FRAME_BYTES := by
  unfold held
  split
  · exact Nat.zero_le _
  · exact Nat.le_of_not_lt ‹_›

/-! ## One turn -/

/-- Without a newline the read goes on. -/
theorem turn_part (hne : rest ≠ []) (h : newline ∉ rest) :
    turn (held raw) rest = (held (raw ++ rest), rest.length, none) := by
  have hnone : rest.findIdx? (· == newline) = none :=
    findIdx?_eq_none_iff.mpr fun b hb => beq_false_of_ne (ne_of_mem_of_not_mem hb h)
  rw [turn, if_neg hne, hnone, extend_held]

/-- A read returns with these frames for the connection. -/
structure Returns (out : FrameBuffer × ℕ × Option FrameStatus) (consumed : ℕ)
    (frames : List Frame) : Prop where
  resume : out.1.resume = held []
  bytes : out.1.bytes.length ≤ MAX_FRAME_BYTES
  consumed : out.2.1 = consumed
  handed : handed out.1 out.2.2 = frames
  eof : out.2.2 = some .Eof ↔ frames = []

/-- A turn that finds a newline returns the line up to it, with what was held before. -/
theorem turn_line (h : newline ∉ payload) :
    Returns (turn (held raw) (payload ++ newline :: rest)) (payload.length + 1)
      [bounded (raw ++ payload) (pop_return (raw ++ payload))] := by
  have hindex : (payload ++ newline :: rest).findIdx? (· == newline) = some payload.length := by
    rw [findIdx?_append, findIdx?_eq_none_iff.mpr fun b hb =>
      beq_false_of_ne (ne_of_mem_of_not_mem hb h)]
    simp [findIdx?_cons]
  rw [turn, if_neg (by simp), hindex]
  simp only [take_left, extend_held]
  unfold held bounded
  by_cases hlong : (raw ++ payload).length > MAX_FRAME_BYTES
  · rw [if_pos hlong, if_pos hlong]
    exact ⟨rfl, Nat.zero_le _, rfl, rfl, by simp⟩
  · rw [if_neg hlong, if_neg hlong]
    refine ⟨rfl, Nat.le_trans ?_ (Nat.le_of_not_lt hlong), rfl, rfl, by simp⟩
    show (pop_return (raw ++ payload)).length ≤ _
    unfold pop_return
    split
    · exact (dropLast_sublist _).length_le
    · exact Nat.le_refl _

/-- At the end of the stream, what was read of a last line is a frame. -/
theorem turn_end : Returns (turn (held raw) []) 0 (tail_frames raw) := by
  rw [turn, if_pos rfl]
  unfold held tail_frames bounded
  by_cases hlong : raw.length > MAX_FRAME_BYTES
  · have hraw : raw ≠ [] := ne_nil_of_length_pos (Nat.zero_lt_of_lt hlong)
    rw [if_pos hlong, if_pos hlong, if_neg hraw]
    exact ⟨rfl, Nat.zero_le _, rfl, rfl, by simp⟩
  · rw [if_neg hlong, if_neg hlong]
    refine ⟨rfl, Nat.le_of_not_lt hlong, rfl, ?_, ?_⟩
    all_goals by_cases hraw : raw = [] <;> simp [hraw, FrameReader.handed]

/-! ## Runs -/

/-- After `polls` turns a run has consumed `read`, a byte or more in each, and
handed over its lines; or it has handed over all of the stream. The one turn that
finds the end may return a last line without a newline, and the next one is `Eof`. -/
def Follows (stream : Bytes) (polls : ℕ) (reader : Reader) : Prop :=
  reader.frame.bytes.length ≤ MAX_FRAME_BYTES ∧
    ((∃ read, reader.ended = false ∧ read ++ reader.rest = stream ∧
        reader.frames = (lines read).map line_frame ∧
        reader.frame.resume = held (Lines.tail read) ∧ polls ≤ read.length) ∨
      (reader.rest = [] ∧ reader.frames = frames_of stream ∧ reader.frame.resume = held [] ∧
        (reader.ended = false → polls ≤ stream.length + 1)))

variable {polls : ℕ}

/-- A turn consumes the bytes up to the first newline, or all there are. -/
theorem follows_turned {read available later : Bytes} (hne : available ≠ [])
    (hrest : reader.rest = available ++ later)
    (hframes : reader.frames = (lines read).map line_frame) (hpolls : polls ≤ read.length) :
    Follows (read ++ reader.rest) (polls + 1)
      (reader.turned (turn (held (Lines.tail read)) available)) := by
  unfold Reader.turned
  by_cases hmem : newline ∈ available
  · obtain ⟨payload, after, rfl, hpayload⟩ := eq_append_cons_of_mem hmem
    have h : Returns (turn (held (Lines.tail read)) (payload ++ newline :: after)) _ _ :=
      turn_line hpayload
    have hsplit := split_append_glued read hpayload
    refine ⟨h.bytes, .inl ⟨read ++ (payload ++ [newline]), ?_, ?_, ?_, ?_, ?_⟩⟩
    · exact decide_eq_false (mt h.eof.mp (cons_ne_nil _ _))
    · simp [h.consumed, hrest, drop_append]
    · simp only [hframes, h.handed, lines, hsplit, map_append, map_singleton, line_frame,
        dropLast_concat]
    · exact h.resume.trans (congrArg (held ·.2) hsplit.symm)
    · simp only [length_append, length_singleton]
      omega
  · have hsplit := split_append_torn read hmem
    have hpos := length_pos_of_ne_nil hne
    rw [turn_part hne hmem]
    refine ⟨length_held, .inl ⟨read ++ available, rfl, ?_, ?_, ?_, ?_⟩⟩
    · simp only [hrest, drop_left, append_assoc]
    · rw [lines, hsplit, hframes]
      exact append_nil _
    · exact resume_held.trans (congrArg (held ·.2) hsplit.symm)
    · simp only [length_append]
      omega

/-- A dropped read leaves what it has consumed to the next one. -/
theorem follows_drop (h : Follows stream polls reader) :
    Follows stream polls (reader.step .drop) := by
  obtain ⟨hbytes, ⟨read, hopen, rfl, hframes, hheld, hpolls⟩ | ⟨hrest, hframes, hheld, hpolls⟩⟩ := h
  · refine ⟨?_, .inl ⟨read, hopen, rfl, hframes, ?_, hpolls⟩⟩
    all_goals simp only [Reader.step, hheld, length_held, resume_held]
  · refine ⟨?_, .inr ⟨hrest, hframes, ?_, hpolls⟩⟩
    all_goals simp only [Reader.step, hheld, length_held, resume_held]

/-- One more fill consumes at least a byte, or the stream has been handed over. -/
theorem follows_fill (h : Follows stream polls reader) (more : ℕ) :
    Follows stream (polls + 1) (reader.step (.fill more)) := by
  show Follows _ _ (if _ then _ else _)
  obtain ⟨hbytes, ⟨read, hopen, rfl, hframes, hheld, hpolls⟩ | ⟨hrest, hframes, hheld, hpolls⟩⟩ := h
  · rw [hopen, if_neg Bool.false_ne_true, hheld]
    by_cases hrest : reader.rest = []
    · have hend : Returns (turn (held (Lines.tail read)) []) 0 _ := turn_end
      rw [hrest, take_nil, append_nil]
      refine ⟨hend.bytes, .inr ⟨?_, ?_, hend.resume, fun _ => Nat.succ_le_succ hpolls⟩⟩
      · rw [Reader.turned, hrest, drop_nil]
      · rw [Reader.turned, hframes, hend.handed]
        rfl
    · have hne : reader.rest.take (more + 1) ≠ [] := by
        rw [ne_eq, take_eq_nil_iff]
        exact fun hnil => hnil.elim nofun hrest
      exact follows_turned hne (take_append_drop _ _).symm hframes hpolls
  · by_cases hended : reader.ended = true
    · rw [if_pos hended]
      exact ⟨hbytes, .inr ⟨hrest, hframes, hheld, fun hopen => absurd (hopen.symm.trans hended) nofun⟩⟩
    -- the end was seen before and the frame is empty, so this turn is the `Eof`
    rw [if_neg hended, hheld, hrest, take_nil]
    refine ⟨Nat.zero_le _, .inr ⟨?_, ?_, rfl, nofun⟩⟩
    · rw [Reader.turned, hrest, drop_nil]
    · rw [← hframes]
      exact append_nil _

/-- Along a run, by induction on its events from the last one backwards. -/
theorem follows_serve (stream : Bytes) (events : List Event) :
    Follows stream (fills events) (serve stream events) := by
  induction events using List.reverseRecOn with
  | nil => exact ⟨Nat.zero_le _, .inl ⟨[], rfl, rfl, rfl, rfl, Nat.le_refl 0⟩⟩
  | append_singleton events event ih =>
    rw [serve, foldl_concat, fills, countP_append]
    cases event with
    | fill more => exact follows_fill ih more
    | drop => exact follows_drop ih

/-- However a stream arrives and wherever its reads are dropped, the frames that
are read are the first of the stream's. A run that polls the input twice more than
the stream has bytes has read all of them and has come to the end, and no run
comes to the end without having read all of them. The buffer stays within the limit. -/
theorem serve_frames (stream : Bytes) (events : List Event) :
    (serve stream events).frames <+: frames_of stream ∧
    (stream.length + 2 ≤ fills events →
      (serve stream events).ended = true ∧ (serve stream events).frames = frames_of stream) ∧
    ((serve stream events).ended = true → (serve stream events).frames = frames_of stream) ∧
    (serve stream events).frame.bytes.length ≤ MAX_FRAME_BYTES := by
  obtain ⟨hbytes, ⟨read, hopen, hstream, hframes, -, hpolls⟩ | ⟨-, hframes, -, hpolls⟩⟩ :=
    follows_serve stream events
  · have hlines : lines stream = lines read ++ _ := congrArg Prod.fst (hstream ▸ split_append read _)
    have hlength := congrArg length hstream
    rw [length_append] at hlength
    refine ⟨?_, fun hmany => ?_, fun hended => absurd (hopen.symm.trans hended) nofun, hbytes⟩
    · rw [hframes, frames_of, hlines, map_append, append_assoc]
      exact prefix_append _ _
    · omega
  · refine ⟨hframes ▸ prefix_rfl, fun hmany => ⟨?_, hframes⟩, fun _ => hframes, hbytes⟩
    by_contra hopen
    have hle := hpolls (Bool.not_eq_true _ ▸ hopen)
    omega

/-- The bytes `a`, CR, LF, `b` arrive one by one, and the read is dropped inside the first line. -/
example : (serve [97, 13, 10, 98] [.fill 0, .drop, .fill 0, .fill 0, .fill 0, .fill 0, .fill 0]).frames =
    [.complete [97], .complete [98]] := by decide

end BobbyBrowser.FrameReader
