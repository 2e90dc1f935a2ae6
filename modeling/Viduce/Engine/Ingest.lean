/-
The ingest socket of the engine (`engine_session.cpp`). The socket thread reads a header of 16 bytes and then the payload it
announces, hands both to the callback, and starts over until a read fails.

- `asioRead_run`: `boost::asio::read` over a socket whose bytes arrive in segments.
- `wire`: the framing of the socket.
- `readFrame_run`: a `ReadFrame` takes one frame off the socket, or ends the loop.
- `delivers_longest`: under every segmentation, the callback gets the longest list of frames whose encoding is a prefix of
  what the client sent; of a cut encoding, the frames wholly before the cut.
-/
import Mathlib.Tactic
import Viduce.Core.Framing

namespace Viduce.Ingest

/-! ## The socket -/

/-- `boost::system::error_code`, of a failed read -/
inductive ErrorCode where
  | eof
  | other (value : ℤ)
deriving DecidableEq, Repr

/-- a connection: the segments that reads find, and how reads fail after the last one -/
structure Socket where
  segments : List (List UInt8)
  ending : ErrorCode

/-- all that is still to be read -/
def Socket.bytes (socket : Socket) : List UInt8 := socket.segments.flatten

/-- `read_some` until `need` bytes are there: each takes a segment, or as much of it as the buffer has room for -/
def readLoop (ending : ErrorCode) : ℕ → List (List UInt8) → Except ErrorCode (List UInt8) × List (List UInt8)
  | 0, segments => (.ok [], segments)
  | _ + 1, [] => (.error ending, [])
  | need + 1, segment :: rest =>
    if segment.length ≤ need + 1 then
      let more := readLoop ending (need + 1 - segment.length) rest
      (more.1.map (segment ++ ·), more.2)
    else (.ok (segment.take (need + 1)), segment.drop (need + 1) :: rest)

/-- `boost::asio::read` into a buffer of `size` bytes -/
def asioRead (size : ℕ) (socket : Socket) : Except ErrorCode (List UInt8) × Socket :=
  let read := readLoop socket.ending size socket.segments
  (read.1, { socket with segments := read.2 })

/-! ## The session -/

/-- `FrameHeader`, packed -/
structure FrameHeader where
  payloadLen : UInt32
  flags : UInt32
  timestamp : Int64
deriving DecidableEq

/-- sizeof(FrameHeader) -/
def headerSize : ℕ := 16

/-- `memcpy` of the header buffer into a `FrameHeader`, on a little-endian host -/
def FrameHeader.ofBytes (buf : List UInt8) : FrameHeader where
  payloadLen := UInt32.ofNat (leValue (buf.take 4))
  flags := UInt32.ofNat (leValue ((buf.drop 4).take 4))
  timestamp := (UInt64.ofNat (leValue (buf.drop 8))).toInt64

/-- a call of `on_frame_` -/
structure Call where
  header : FrameHeader
  payload : List UInt8
deriving DecidableEq

structure EngineSession where
  /-- `on_frame_` is set -/
  onFrame : Bool
  /-- the calls made of it -/
  calls : List Call

/-- `ReadFrame`; `none` is the empty error code -/
def EngineSession.readFrame (session : EngineSession) (socket : Socket) : Option ErrorCode × EngineSession × Socket :=
  match asioRead headerSize socket with
  | (.error ec, socket) => (some ec, session, socket)
  | (.ok headerBuf, socket) =>
    let header := FrameHeader.ofBytes headerBuf
    match asioRead header.payloadLen.toNat socket with
    | (.error ec, socket) => (some ec, session, socket)
    | (.ok payload, socket) =>
      if session.onFrame then (none, { session with calls := session.calls ++ [⟨header, payload⟩] }, socket)
      else (none, session, socket)

/-! ## What the reads do -/

/-- segmentation does not matter: the loop takes `size` bytes off the front, or fails for want of them -/
theorem readLoop_run (ending : ErrorCode) (size : ℕ) (segments : List (List UInt8)) :
    (readLoop ending size segments).1 =
        (if size ≤ segments.flatten.length then .ok (segments.flatten.take size) else .error ending) ∧
      (size ≤ segments.flatten.length → (readLoop ending size segments).2.flatten = segments.flatten.drop size) := by
  induction segments generalizing size with
  | nil =>
    cases size with
    | zero => exact ⟨rfl, fun _ => rfl⟩
    | succ need => exact ⟨rfl, fun h => absurd h (Nat.not_succ_le_zero _)⟩
  | cons segment rest ih =>
    cases size with
    | zero => exact ⟨rfl, fun _ => rfl⟩
    | succ need =>
      obtain ⟨hread, hleft⟩ := ih (need + 1 - segment.length)
      rw [readLoop, List.flatten_cons, List.length_append]
      by_cases hseg : segment.length ≤ need + 1
      · -- the whole segment, and the rest of the buffer from the segments after it
        simp only [if_pos hseg, hread]
        rw [List.take_append, List.drop_append, List.take_of_length_le hseg, List.drop_of_length_le hseg]
        refine ⟨?_, fun henough => hleft (by omega)⟩
        split_ifs with hrest henough henough
        · rfl
        · omega
        · omega
        · rfl
      · have hshort : need + 1 ≤ segment.length := by omega
        simp only [if_neg hseg]
        rw [if_pos (by omega), List.take_append_of_le_length hshort, List.drop_append_of_le_length hshort]
        exact ⟨rfl, fun _ => rfl⟩

/-- a read of a full buffer -/
theorem asioRead_ok {socket : Socket} {size : ℕ} (h : size ≤ socket.bytes.length) :
    ∃ left, asioRead size socket = (.ok (socket.bytes.take size), ⟨left, socket.ending⟩) ∧
      left.flatten = socket.bytes.drop size := by
  obtain ⟨hread, hleft⟩ := readLoop_run socket.ending size socket.segments
  unfold Socket.bytes at h ⊢
  rw [if_pos h] at hread
  exact ⟨_, Prod.ext hread rfl, hleft h⟩

/-- a read that meets the end fails -/
theorem asioRead_error {socket : Socket} {size : ℕ} (h : ¬ size ≤ socket.bytes.length) :
    ∃ socket', asioRead size socket = (.error socket.ending, socket') := by
  obtain ⟨hread, -⟩ := readLoop_run socket.ending size socket.segments
  unfold Socket.bytes at h
  rw [if_neg h] at hread
  exact ⟨_, Prod.ext hread rfl⟩

/-! ## The framing -/

/-- a frame on the wire: the header announces the length of its payload -/
structure Frame where
  header : FrameHeader
  payload : List UInt8
  announced : payload.length = header.payloadLen.toNat

/-- the call a frame ends in -/
def Frame.call (frame : Frame) : Call := ⟨frame.header, frame.payload⟩

/-- the packed header in host little-endian order -/
def FrameHeader.toBytes (header : FrameHeader) : List UInt8 :=
  leBytes 4 header.payloadLen.toNat ++ leBytes 4 header.flags.toNat ++ leBytes 8 header.timestamp.toUInt64.toNat

theorem toBytes_length (header : FrameHeader) : header.toBytes.length = headerSize := by
  simp [FrameHeader.toBytes, headerSize]

theorem ofBytes_toBytes (header : FrameHeader) : FrameHeader.ofBytes header.toBytes = header := by
  have hlen : leValue (leBytes 4 header.payloadLen.toNat) = header.payloadLen.toNat :=
    leValue_leBytes header.payloadLen.toNat_lt
  have hflags : leValue (leBytes 4 header.flags.toNat) = header.flags.toNat := leValue_leBytes header.flags.toNat_lt
  have htime : leValue (leBytes 8 header.timestamp.toUInt64.toNat) = header.timestamp.toUInt64.toNat :=
    leValue_leBytes header.timestamp.toUInt64.toNat_lt
  have hfields : (leBytes 4 header.payloadLen.toNat ++ leBytes 4 header.flags.toNat).length = 8 := by simp
  have hlow : (leBytes 4 header.payloadLen.toNat).length = 4 := leBytes_length _ _
  have hmiddle : (leBytes 4 header.flags.toNat).length = 4 := leBytes_length _ _
  unfold FrameHeader.ofBytes FrameHeader.toBytes
  rw [List.drop_left' hfields, List.append_assoc, List.take_left' hlow, List.drop_left' hlow, List.take_left' hmiddle,
    hlen, hflags, htime]
  simp

theorem toBytes_ofBytes {buf : List UInt8} (h : buf.length = headerSize) : (FrameHeader.ofBytes buf).toBytes = buf := by
  have hlow : (buf.take 4).length = 4 := by rw [List.length_take, h]; rfl
  have hmiddle : ((buf.drop 4).take 4).length = 4 := by rw [List.length_take, List.length_drop, h]; rfl
  have hhigh : (buf.drop 8).length = 8 := by rw [List.length_drop, h]; rfl
  have hlen := leValue_lt (buf.take 4)
  have hflags := leValue_lt ((buf.drop 4).take 4)
  have htime := leValue_lt (buf.drop 8)
  rw [hlow, show 256 ^ 4 = 2 ^ 32 by decide] at hlen
  rw [hmiddle, show 256 ^ 4 = 2 ^ 32 by decide] at hflags
  rw [hhigh, show 256 ^ 8 = 2 ^ 64 by decide] at htime
  simp only [FrameHeader.ofBytes, FrameHeader.toBytes, UInt64.toUInt64_toInt64]
  rw [UInt32.toNat_ofNat', UInt32.toNat_ofNat', UInt64.toNat_ofNat', Nat.mod_eq_of_lt hlen, Nat.mod_eq_of_lt hflags,
    Nat.mod_eq_of_lt htime, leBytes_leValue hlow, leBytes_leValue hmiddle, leBytes_leValue hhigh]
  have hsplit : buf.drop 8 = (buf.drop 4).drop 4 := by rw [List.drop_drop]
  rw [hsplit, List.append_assoc, List.take_append_drop, List.take_append_drop]

def parseFrame (s : List UInt8) : Option (Frame × List UInt8) :=
  if headerSize ≤ s.length then
    let header := FrameHeader.ofBytes (s.take headerSize)
    let body := s.drop headerSize
    if h : header.payloadLen.toNat ≤ body.length then
      some (⟨header, body.take header.payloadLen.toNat, by rw [List.length_take, Nat.min_eq_left h]⟩,
        body.drop header.payloadLen.toNat)
    else none
  else none

theorem parseFrame_encode (frame : Frame) (rest : List UInt8) :
    parseFrame (frame.header.toBytes ++ frame.payload ++ rest) = some (frame, rest) := by
  obtain ⟨header, payload, announced⟩ := frame
  have hlen := toBytes_length header
  have hroom : headerSize ≤ (header.toBytes ++ payload ++ rest).length := by
    rw [List.length_append, List.length_append, hlen]
    omega
  have hbody : payload.length ≤ (payload ++ rest).length := by simp
  unfold parseFrame
  rw [if_pos hroom]
  simp only [List.append_assoc, List.take_left' hlen, List.drop_left' hlen, ofBytes_toBytes, ← announced, dif_pos hbody,
    List.take_left', List.drop_left']

theorem parseFrame_some {s rest : List UInt8} {frame : Frame} (h : parseFrame s = some (frame, rest)) :
    s = frame.header.toBytes ++ frame.payload ++ rest := by
  unfold parseFrame at h
  split_ifs at h with hroom
  simp only at h
  split_ifs at h with hbody
  cases h
  have hlen : (s.take headerSize).length = headerSize := by rw [List.length_take, Nat.min_eq_left hroom]
  rw [toBytes_ofBytes hlen, List.append_assoc, List.take_append_drop, List.take_append_drop]

/-- the framing of the socket -/
def wire : Framing Frame UInt8 where
  encode frame := frame.header.toBytes ++ frame.payload
  parse := parseFrame
  parse_encode := parseFrame_encode
  encode_parse := parseFrame_some
  encode_ne_nil frame h := by
    have hlen := toBytes_length frame.header
    rw [(List.append_eq_nil_iff.1 h).1] at hlen
    exact absurd hlen (by decide)

/-! ## The socket thread -/

/-- the session once the callback has been made, if there is one -/
def EngineSession.called (session : EngineSession) (call : Call) : EngineSession :=
  if session.onFrame then { session with calls := session.calls ++ [call] } else session

/-- **One frame.** A `ReadFrame` takes the frame at the front of the socket and calls back. -/
theorem readFrame_some {socket : Socket} {frame : Frame} {rest : List UInt8}
    (h : wire.parse socket.bytes = some (frame, rest)) (session : EngineSession) :
    ∃ left, session.readFrame socket = (none, session.called frame.call, ⟨left, socket.ending⟩) ∧
      left.flatten = rest := by
  have hbytes := parseFrame_some h
  have hheader := toBytes_length frame.header
  have hlen : headerSize ≤ socket.bytes.length := by
    rw [hbytes, List.length_append, List.length_append, hheader]
    omega
  obtain ⟨left, hread, hleft⟩ := asioRead_ok hlen
  rw [hbytes, List.append_assoc, List.take_left' hheader] at hread
  rw [hbytes, List.append_assoc, List.drop_left' hheader] at hleft
  have hbody : frame.header.payloadLen.toNat ≤ (Socket.mk left socket.ending).bytes.length := by
    rw [Socket.bytes, hleft, List.length_append, frame.announced]
    omega
  obtain ⟨left', hread', hleft'⟩ := asioRead_ok hbody
  rw [Socket.bytes, hleft, ← frame.announced, List.take_left] at hread'
  rw [Socket.bytes, hleft, ← frame.announced, List.drop_left] at hleft'
  refine ⟨left', ?_, hleft'⟩
  unfold EngineSession.readFrame EngineSession.called
  simp only [hread, ofBytes_toBytes, ← frame.announced, hread']
  split_ifs <;> rfl

/-- without a whole frame at the front of the socket `ReadFrame` fails, and makes no call -/
theorem readFrame_none {socket : Socket} (h : wire.parse socket.bytes = none) (session : EngineSession) :
    ∃ ec socket', session.readFrame socket = (some ec, session, socket') := by
  unfold EngineSession.readFrame
  by_cases hlen : headerSize ≤ socket.bytes.length
  · obtain ⟨left, hread, hleft⟩ := asioRead_ok hlen
    have hbody : ¬ (FrameHeader.ofBytes (socket.bytes.take headerSize)).payloadLen.toNat ≤
        (Socket.mk left socket.ending).bytes.length := by
      intro hbody
      have hleft' : (Socket.mk left socket.ending).bytes = socket.bytes.drop headerSize := hleft
      rw [hleft'] at hbody
      change parseFrame socket.bytes = none at h
      simp only [parseFrame, if_pos hlen, dif_pos hbody] at h
      cases h
    obtain ⟨socket', hread'⟩ := asioRead_error hbody
    simp only [hread, hread']
    exact ⟨_, _, rfl⟩
  · obtain ⟨socket', hread⟩ := asioRead_error hlen
    simp only [hread]
    exact ⟨_, _, rfl⟩

/-- a `ReadFrame` that does not fail leaves less to be read -/
theorem readFrame_shorter {session session' : EngineSession} {socket socket' : Socket}
    (h : session.readFrame socket = (none, session', socket')) : socket'.bytes.length < socket.bytes.length := by
  cases hp : wire.parse socket.bytes with
  | none =>
    obtain ⟨ec, socket'', hrun⟩ := readFrame_none hp session
    rw [h] at hrun
    cases hrun
  | some found =>
    obtain ⟨left, hrun, hleft⟩ := readFrame_some hp session
    rw [h] at hrun
    cases hrun
    rw [Socket.bytes, hleft]
    exact wire.parse_shorter hp

/-- `while (!ec) { ec = ReadFrame(socket); }` -/
def EngineSession.socketLoop (session : EngineSession) (socket : Socket) : EngineSession :=
  match _h : session.readFrame socket with
  | (some _, session', _) => session'
  | (none, session', socket') => session'.socketLoop socket'
termination_by socket.bytes.length
decreasing_by exact readFrame_shorter _h

/-- **The socket thread.** The calls it makes are those of the frames on the socket. -/
theorem socketLoop_run (session : EngineSession) (socket : Socket) :
    session.socketLoop socket = (wire.frames socket.bytes).foldl (fun s frame => s.called frame.call) session := by
  induction hn : socket.bytes.length using Nat.strong_induction_on generalizing session socket with
  | _ n ih =>
    rw [EngineSession.socketLoop]
    cases hp : wire.parse socket.bytes with
    | none =>
      obtain ⟨ec, socket', hrun⟩ := readFrame_none hp session
      rw [wire.frames_none hp]
      split
      · rename_i h
        rw [hrun] at h
        cases h
        rfl
      · rename_i h
        rw [hrun] at h
        cases h
    | some found =>
      obtain ⟨frame, rest⟩ := found
      obtain ⟨left, hrun, hleft⟩ := readFrame_some hp session
      rw [wire.frames_some hp, List.foldl_cons]
      split
      · rename_i h
        rw [hrun] at h
        cases h
      · rename_i h
        have hshorter := readFrame_shorter h
        rw [hrun] at h
        cases h
        rw [ih _ (hn ▸ hshorter) _ _ rfl, Socket.bytes, hleft]

/-- a session whose callback is set, before any call -/
def listening : EngineSession := ⟨true, []⟩

theorem calls_eq (socket : Socket) : (listening.socketLoop socket).calls = (wire.frames socket.bytes).map Frame.call := by
  have hfold : ∀ (frames : List Frame) (calls : List Call),
      (frames.foldl (fun s frame => s.called frame.call) (⟨true, calls⟩ : EngineSession)).calls =
        calls ++ frames.map Frame.call := by
    intro frames
    induction frames with
    | nil => simp
    | cons frame frames ih =>
      intro calls
      rw [List.foldl_cons, List.map_cons]
      exact (ih (calls ++ [frame.call])).trans (by simp)
  rw [socketLoop_run]
  exact hfold _ []

/-- **Exactly its framing.** Whatever a client sends, and however it is cut into segments: the callback gets, in order and
unchanged, the one longest list of frames whose encoding is a prefix of it. If the client sends the first n bytes of an
encoding, these are the frames wholly before the cut. -/
theorem delivers_longest (segments : List (List UInt8)) (ending : ErrorCode) :
    (∃ frames : List Frame, (listening.socketLoop ⟨segments, ending⟩).calls = frames.map Frame.call ∧
      wire.Longest frames segments.flatten ∧ ∀ frames', wire.Longest frames' segments.flatten → frames' = frames) ∧
    ∀ (sent : List Frame) (n : ℕ), segments.flatten = (wire.encodeAll sent).take n →
      (listening.socketLoop ⟨segments, ending⟩).calls = (wire.wholeBefore sent n).map Frame.call := by
  have hcalls := calls_eq ⟨segments, ending⟩
  refine ⟨⟨wire.frames segments.flatten, hcalls, wire.frames_longest _, fun frames' h => wire.longest_unique h⟩,
    fun sent n h => ?_⟩
  rw [hcalls, Socket.bytes, h, wire.frames_take]

/-! ## A cut stream -/

/-- a keyframe of three bytes -/
def keyframe : Frame := ⟨⟨3, 1, 42⟩, [1, 2, 3], rfl⟩

/-- a frame without payload -/
def emptyFrame : Frame := ⟨⟨0, 0, 7⟩, [], rfl⟩

/-- two segments cut inside the first header, and the second frame's header cut short: the first frame is delivered -/
theorem cut_header_dropped :
    (listening.socketLoop ⟨[[3, 0, 0, 0, 1], [0, 0, 0, 42, 0, 0, 0, 0, 0, 0, 0, 1, 2, 3, 0, 0, 0, 0, 0]], .eof⟩).calls =
      [⟨⟨3, 1, 42⟩, [1, 2, 3]⟩] :=
  (delivers_longest [[3, 0, 0, 0, 1], [0, 0, 0, 42, 0, 0, 0, 0, 0, 0, 0, 1, 2, 3, 0, 0, 0, 0, 0]] .eof).2
    [keyframe, emptyFrame] 24 (by decide)

end Viduce.Ingest
