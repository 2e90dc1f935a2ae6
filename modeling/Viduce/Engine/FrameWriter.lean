/-
The frame writer of the engine (`frame_writer.cc`). Each configured stream has an encoder and an output stream of its
own. A write sends one frame to an encoder and then receives packets until the encoder asks for more; a flush does the
same with the null frame for every encoder, in the order of the map, and ends with the trailer. One packet object serves
all of it.

- `drainLoop_ok`, `encodeFrame_ok`: what one call does to its encoder and what it hands to the muxer.
- `Fed`, `Flushed`: what an encoder still owes of the frames of its stream, and that it owes nothing.
- `muxes_each_packet_once`: after writes and a flush that all return OK, the packets handed to the muxer are, stream by
  stream, those its encoder makes of its frames, whatever the order of the map.

FFmpeg's encoders are codecs behind its send/receive interface. Any call of FFmpeg may fail for reasons of its own.
-/
import Mathlib.Tactic
import Viduce.Core.Absl
import Viduce.Core.SendReceive

namespace Viduce.Writer

open Viduce.Absl Viduce.SendReceive

variable {σ F P : Type}

/-! ## FFmpeg -/

/-- the outside of the writer: which calls of FFmpeg fail, counted from the first one, and its two pure functions -/
structure Ffmpeg (P : Type) where
  fault : ℕ → Option ℤ
  /-- `av_packet_rescale_ts`, from a timebase to a timebase -/
  rescaleTs : ℚ → ℚ → P → P
  /-- `util::AvErrToStr` -/
  avErrToStr : Refusal → String

/-- a packet; the blank one has no data -/
structure AVPacket (P : Type) where
  data : Option P
  streamIndex : ℕ
deriving DecidableEq

/-- what `av_packet_unref` leaves -/
def AVPacket.blank : AVPacket P := ⟨none, 0⟩

/-- an output stream -/
structure AVStream where
  index : ℕ
  timeBase : ℚ

/-- a call of FFmpeg that the results speak about -/
inductive Event (P : Type) where
  /-- `avcodec_send_frame`, and how many packets of that encoder were undelivered then -/
  | sendFrame (streamIndex : ℤ) (undelivered : ℕ)
  /-- `av_interleaved_write_frame` -/
  | writeFrame (packet : AVPacket P)
  /-- `av_write_trailer` -/
  | writeTrailer
deriving DecidableEq

/-! ## The writer -/

/-- `EncoderInfo`, with the encoder's own timebase -/
structure EncoderInfo (σ F P : Type) where
  encodingStream : AVStream
  encoderCtx : Context σ F P
  timeBase : ℚ

structure FrameWriter (σ F P : Type) where
  /-- `encoders_`, from stream indices -/
  encoders : ℤ → Option (EncoderInfo σ F P)
  /-- `packet_` -/
  packet : AVPacket P
  /-- the number of FFmpeg calls so far (bookkeeping) -/
  calls : ℕ
  /-- those of them the results speak about (bookkeeping) -/
  log : List (Event P)

structure Frame (F : Type) where
  streamIndex : ℤ
  frame : F

/-- a configured video stream: its index, its timebase, and the encoder opened for it -/
structure StreamInfo (σ F P : Type) where
  streamIndex : ℤ
  timeBase : ℚ
  encoder : Codec σ F P

/-- the loop of `Create`: the encoder of each stream and the output stream made for it, numbered from n on; writing the
header may change the timebase of an output stream -/
def createEncoders (headerTimeBase : ℕ → ℚ) :
    ℕ → List (StreamInfo σ F P) → (ℤ → Option (EncoderInfo σ F P)) → ℤ → Option (EncoderInfo σ F P)
  | _, [], encoders => encoders
  | n, s :: streams, encoders =>
    createEncoders headerTimeBase (n + 1) streams
      (Function.update encoders s.streamIndex (some ⟨⟨n, headerTimeBase n⟩, Context.start s.encoder, s.timeBase⟩))

/-- `FrameWriter::Create` on video streams, when nothing in it fails -/
def FrameWriter.create (headerTimeBase : ℕ → ℚ) (streams : List (StreamInfo σ F P)) : FrameWriter σ F P :=
  ⟨createEncoders headerTimeBase 0 streams fun _ => none, AVPacket.blank, 0, []⟩

section Calls

variable (ff : Ffmpeg P)

/-- `avcodec_send_frame`; the null frame is `none` -/
def FrameWriter.sendFrame (w : FrameWriter σ F P) (streamIndex : ℤ) (info : EncoderInfo σ F P) (frame : Option F) :
    Except Refusal (EncoderInfo σ F P) × FrameWriter σ F P :=
  let w' := { w with
    calls := w.calls + 1
    log := w.log ++ [.sendFrame streamIndex info.encoderCtx.queue.length] }
  match ff.fault w.calls with
  | some code => (.error (.other code), w')
  | none =>
    let sent := info.encoderCtx.send frame
    let info' := { info with encoderCtx := sent.2 }
    (sent.1.map fun _ => info', { w' with encoders := Function.update w.encoders streamIndex (some info') })

/-- `avcodec_receive_packet` into `packet_` -/
def FrameWriter.receivePacket (w : FrameWriter σ F P) (streamIndex : ℤ) (info : EncoderInfo σ F P) :
    Except Refusal (EncoderInfo σ F P) × FrameWriter σ F P :=
  let w' := { w with calls := w.calls + 1 }
  match ff.fault w.calls with
  | some code => (.error (.other code), w')
  | none =>
    let received := info.encoderCtx.receive
    let info' := { info with encoderCtx := received.2 }
    let w'' := { w' with encoders := Function.update w.encoders streamIndex (some info') }
    match received.1 with
    | .error e => (.error e, w'')
    | .ok data => (.ok info', { w'' with packet := ⟨some data, 0⟩ })

/-- `av_interleaved_write_frame` of `packet_`, which it takes over -/
def FrameWriter.interleavedWriteFrame (w : FrameWriter σ F P) : Except Refusal Unit × FrameWriter σ F P :=
  let w' := { w with calls := w.calls + 1, log := w.log ++ [.writeFrame w.packet], packet := AVPacket.blank }
  match ff.fault w.calls with
  | some code => (.error (.other code), w')
  | none => (.ok (), w')

/-- `av_write_trailer` -/
def FrameWriter.writeTrailer (w : FrameWriter σ F P) : Except Refusal Unit × FrameWriter σ F P :=
  let w' := { w with calls := w.calls + 1, log := w.log ++ [.writeTrailer] }
  match ff.fault w.calls with
  | some code => (.error (.other code), w')
  | none => (.ok (), w')

/-- `while (true)` of `EncodeFrame`, for so many iterations; `none` is that they do not suffice -/
def FrameWriter.drainLoop (streamIndex : ℤ) :
    ℕ → EncoderInfo σ F P → FrameWriter σ F P → Option (Except Status Unit × FrameWriter σ F P)
  | 0, _, _ => none
  | fuel + 1, info, w =>
    match ({ w with packet := AVPacket.blank } : FrameWriter σ F P).receivePacket ff streamIndex info with
    -- the encoder is flushed, or needs more frames
    | (.error .eof, w) | (.error .eagain, w) => some (.ok (), w)
    | (.error e, w) =>
      some (.error ⟨.internal, s!"Error receiving packet for encoding with error: {ff.avErrToStr e} for stream index: " ++
        s!"{streamIndex}"⟩, w)
    | (.ok info, w) =>
      let packet : AVPacket P :=
        ⟨w.packet.data.map (ff.rescaleTs info.timeBase info.encodingStream.timeBase), info.encodingStream.index⟩
      match ({ w with packet := packet } : FrameWriter σ F P).interleavedWriteFrame ff with
      | (.error e, w) =>
        some (.error ⟨.internal, s!"Error writing packet with error: {ff.avErrToStr e} for stream index: {streamIndex}"⟩, w)
      | (.ok (), w) => FrameWriter.drainLoop streamIndex fuel info w

/-- `EncodeFrame`; without an encoder `encoders_.at` throws, which is `none` -/
def FrameWriter.encodeFrame (w : FrameWriter σ F P) (streamIndex : ℤ) (frame : Option F) :
    Option (Except Status Unit × FrameWriter σ F P) :=
  match w.encoders streamIndex with
  | none => none
  | some encoderInfo =>
    match w.sendFrame ff streamIndex encoderInfo frame with
    | (.error e, w) =>
      some (.error ⟨.internal, s!"Error sending frame for encoding with error: {ff.avErrToStr e} for stream index: " ++
        s!"{streamIndex}"⟩, w)
    | (.ok info, w) => FrameWriter.drainLoop ff streamIndex (info.encoderCtx.queue.length + 1) info w

/-- `Write` -/
def FrameWriter.write (w : FrameWriter σ F P) (frame : Frame F) : Option (Except Status Unit × FrameWriter σ F P) :=
  if (w.encoders frame.streamIndex).isNone then
    some (.error ⟨.notFound, s!"No encoder configured for stream index: {frame.streamIndex}"⟩, w)
  else w.encodeFrame ff frame.streamIndex (some frame.frame)

/-- the loop of `Flush`, over the stream indices in the order of the map -/
def FrameWriter.flushEncoders : List ℤ → FrameWriter σ F P → Option (Except Status Unit × FrameWriter σ F P)
  | [], w => some (.ok (), w)
  | streamIndex :: rest, w =>
    match w.encodeFrame ff streamIndex none with
    | some (.ok (), w) => FrameWriter.flushEncoders rest w
    | out => out

/-- `Flush` -/
def FrameWriter.flush (w : FrameWriter σ F P) (order : List ℤ) : Option (Except Status Unit × FrameWriter σ F P) :=
  match FrameWriter.flushEncoders ff order w with
  | some (.ok (), w) =>
    match w.writeTrailer ff with
    | (.error e, w) => some (.error ⟨.internal, s!"Failed to write trailer with error: {ff.avErrToStr e}"⟩, w)
    | (.ok (), w) => some (.ok (), w)
  | out => out

/-- calls of `Write` that all return OK -/
inductive WritesOk : FrameWriter σ F P → List (Frame F) → FrameWriter σ F P → Prop
  | nil (w : FrameWriter σ F P) : WritesOk w [] w
  | cons {w w' w'' : FrameWriter σ F P} {f : Frame F} {fs : List (Frame F)} (h : w.write ff f = some (.ok (), w'))
      (rest : WritesOk w' fs w'') : WritesOk w (f :: fs) w''

/-! ## What a call does -/

/-- a packet of an encoder, as it is handed to the muxer -/
def EncoderInfo.stamp (info : EncoderInfo σ F P) (data : P) : AVPacket P :=
  ⟨some (ff.rescaleTs info.timeBase info.encodingStream.timeBase data), info.encodingStream.index⟩

/-- the encoder with another context -/
def EncoderInfo.withCtx (info : EncoderInfo σ F P) (c : Context σ F P) : EncoderInfo σ F P :=
  { info with encoderCtx := c }

variable {ff} {k : ℤ} {w w' : FrameWriter σ F P} {info : EncoderInfo σ F P}

/-- **Draining.** A loop that ends OK has emptied the queue of its encoder into the muxer, in order, and touched no other
encoder. -/
theorem drainLoop_ok {fuel : ℕ} (h : FrameWriter.drainLoop ff k fuel info w = some (.ok (), w')) :
    w'.encoders = Function.update w.encoders k (some (info.withCtx { info.encoderCtx with queue := [] })) ∧
      w'.log = w.log ++ info.encoderCtx.queue.map fun data => .writeFrame (info.stamp ff data) := by
  induction fuel generalizing info w with
  | zero => cases h
  | succ fuel ih =>
    rw [FrameWriter.drainLoop, FrameWriter.receivePacket] at h
    cases hf : ff.fault w.calls with
    | some code =>
      simp only [hf] at h
      cases h
    | none =>
      simp only [hf] at h
      cases hq : info.encoderCtx.queue with
      | nil =>
        rw [Context.receive_nil hq] at h
        have hsame : info.withCtx { info.encoderCtx with queue := [] } = info := by
          rw [EncoderInfo.withCtx, ← hq]
        rw [hsame, List.map_nil, List.append_nil]
        cases hd : info.encoderCtx.draining with
        | true =>
          simp only [hd] at h
          cases h
          exact ⟨rfl, rfl⟩
        | false =>
          simp only [hd] at h
          cases h
          exact ⟨rfl, rfl⟩
      | cons y q =>
        rw [Context.receive_cons hq] at h
        simp only [FrameWriter.interleavedWriteFrame] at h
        cases hf' : ff.fault (w.calls + 1) with
        | some code =>
          simp only [hf'] at h
          cases h
        | none =>
          simp only [hf'] at h
          obtain ⟨henc, hlog⟩ := ih h
          refine ⟨?_, ?_⟩
          · rw [henc, Function.update_idem]
            rfl
          · rw [hlog, List.map_cons, List.append_assoc]
            rfl

/-- the loop returns: it receives a packet in every iteration but the last -/
theorem drainLoop_isSome {fuel : ℕ} (h : info.encoderCtx.queue.length < fuel) :
    (FrameWriter.drainLoop ff k fuel info w).isSome := by
  induction fuel generalizing info w with
  | zero => exact absurd h (Nat.not_lt_zero _)
  | succ fuel ih =>
    rw [FrameWriter.drainLoop, FrameWriter.receivePacket]
    cases hf : ff.fault w.calls with
    | some code => rfl
    | none =>
      simp only
      cases hq : info.encoderCtx.queue with
      | nil =>
        rw [Context.receive_nil hq]
        cases info.encoderCtx.draining <;> rfl
      | cons y q =>
        rw [Context.receive_cons hq]
        rw [hq, List.length_cons] at h
        simp only [FrameWriter.interleavedWriteFrame]
        cases ff.fault (w.calls + 1) with
        | some code => rfl
        | none => exact ih (by simpa using h)

/-- **Encoding.** A call that returns OK has had its frame taken by the encoder, and handed over all the packets the
encoder had then. -/
theorem encodeFrame_ok {frame : Option F} (h : w.encodeFrame ff k frame = some (.ok (), w'))
    (hinfo : w.encoders k = some info) :
    ∃ c, info.encoderCtx.send frame = (.ok (), c) ∧
      w'.encoders = Function.update w.encoders k (some (info.withCtx { c with queue := [] })) ∧
      w'.log = w.log ++ .sendFrame k info.encoderCtx.queue.length ::
        c.queue.map fun data => .writeFrame (info.stamp ff data) := by
  rw [FrameWriter.encodeFrame, hinfo] at h
  simp only [FrameWriter.sendFrame] at h
  cases hf : ff.fault w.calls with
  | some code =>
    simp only [hf] at h
    cases h
  | none =>
    simp only [hf] at h
    rcases hsend : info.encoderCtx.send frame with ⟨e | _, c⟩
    · rw [hsend] at h
      cases h
    · rw [hsend] at h
      obtain ⟨henc, hlog⟩ := drainLoop_ok h
      refine ⟨c, rfl, ?_, ?_⟩
      · rw [henc, Function.update_idem]
        rfl
      · rw [hlog, List.append_assoc]
        rfl

/-- a call for a configured stream returns -/
theorem encodeFrame_isSome (hinfo : w.encoders k = some info) (frame : Option F) :
    (w.encodeFrame ff k frame).isSome := by
  rw [FrameWriter.encodeFrame, hinfo]
  simp only
  split
  · rfl
  · exact drainLoop_isSome (Nat.lt_succ_self _)

end Calls

/-! ## Streams -/

/-- what the muxer was handed -/
def muxed (log : List (Event P)) : List (AVPacket P) :=
  log.filterMap fun
    | .writeFrame packet => some packet
    | _ => none

/-- what the muxer was handed for output stream i -/
def muxedTo (i : ℕ) (log : List (Event P)) : List (AVPacket P) := (muxed log).filter fun packet => packet.streamIndex = i

/-- the frames of a stream -/
def framesOf (k : ℤ) (frames : List (Frame F)) : List F := (frames.filter fun f => f.streamIndex = k).map Frame.frame

/-- the entry of a configured stream -/
def entry (headerTimeBase : ℕ → ℚ) (i : ℕ) (s : StreamInfo σ F P) (c : Context σ F P) : EncoderInfo σ F P :=
  ⟨⟨i, headerTimeBase i⟩, c, s.timeBase⟩

/-- a packet of a configured stream, as it is handed to the muxer: rescaled, with the index of its output stream -/
def stampOf (ff : Ffmpeg P) (headerTimeBase : ℕ → ℚ) (i : ℕ) (s : StreamInfo σ F P) (data : P) : AVPacket P :=
  ⟨some (ff.rescaleTs s.timeBase (headerTimeBase i) data), i⟩

theorem muxedTo_append (i : ℕ) (a b : List (Event P)) : muxedTo i (a ++ b) = muxedTo i a ++ muxedTo i b := by
  simp [muxedTo, muxed]

theorem muxed_call (k : ℤ) (n : ℕ) (packets : List (AVPacket P)) :
    muxed (.sendFrame k n :: packets.map .writeFrame) = packets := by
  simp [muxed, List.filterMap_map]

/-- the packets of a call all go to one output stream -/
theorem muxedTo_call (ff : Ffmpeg P) (headerTimeBase : ℕ → ℚ) (i j : ℕ) (s : StreamInfo σ F P) (k : ℤ) (n : ℕ)
    (q : List P) :
    muxedTo i (.sendFrame k n :: q.map fun data => .writeFrame (stampOf ff headerTimeBase j s data)) =
      if i = j then q.map (stampOf ff headerTimeBase j s) else [] := by
  have hcall := muxed_call k n (q.map (stampOf ff headerTimeBase j s))
  rw [List.map_map] at hcall
  rw [muxedTo, show (fun data => Event.writeFrame (stampOf ff headerTimeBase j s data)) =
    Event.writeFrame ∘ stampOf ff headerTimeBase j s from rfl, hcall]
  split_ifs with h
  · rw [List.filter_eq_self]
    intro packet hpacket
    obtain ⟨data, -, rfl⟩ := List.mem_map.1 hpacket
    simp [stampOf, h]
  · rw [List.filter_eq_nil_iff]
    intro packet hpacket
    obtain ⟨data, -, rfl⟩ := List.mem_map.1 hpacket
    simp [stampOf, Ne.symm h]

/-- an index that is not configured keeps its entry -/
theorem createEncoders_other (headerTimeBase : ℕ → ℚ) {k : ℤ} {streams : List (StreamInfo σ F P)}
    (hk : k ∉ streams.map StreamInfo.streamIndex) (n : ℕ) (encoders : ℤ → Option (EncoderInfo σ F P)) :
    createEncoders headerTimeBase n streams encoders k = encoders k := by
  induction streams generalizing n encoders with
  | nil => rfl
  | cons s streams ih =>
    rw [List.map_cons, List.mem_cons, not_or] at hk
    rw [createEncoders, ih hk.2, Function.update_of_ne hk.1]

/-- each configured stream has the output stream of its position -/
theorem createEncoders_entry (headerTimeBase : ℕ → ℚ) {streams : List (StreamInfo σ F P)}
    (hd : (streams.map StreamInfo.streamIndex).Nodup) {i : ℕ} {s : StreamInfo σ F P} (hs : streams[i]? = some s) (n : ℕ)
    (encoders : ℤ → Option (EncoderInfo σ F P)) :
    createEncoders headerTimeBase n streams encoders s.streamIndex =
      some (entry headerTimeBase (n + i) s (Context.start s.encoder)) := by
  induction streams generalizing i n encoders with
  | nil => cases hs
  | cons t streams ih =>
    rw [List.map_cons, List.nodup_cons] at hd
    rw [createEncoders]
    cases i with
    | zero =>
      obtain rfl : t = s := Option.some.inj hs
      rw [createEncoders_other headerTimeBase hd.1, Function.update_self]
      rfl
    | succ i =>
      rw [ih hd.2 hs, Nat.add_assoc, Nat.add_comm 1 i]

section Runs

variable {ff : Ffmpeg P} {tb : ℕ → ℚ} {streams : List (StreamInfo σ F P)} {w w' : FrameWriter σ F P}

/-- **One call and the streams.** A call for stream j that returns OK hands over what the encoder had after taking the
frame, and leaves the other streams alone. -/
theorem encodeFrame_stream {j : ℕ} {t : StreamInfo σ F P} {c : Context σ F P} {frame : Option F}
    (h : w.encodeFrame ff t.streamIndex frame = some (.ok (), w')) (ht : w.encoders t.streamIndex = some (entry tb j t c)) :
    ∃ c', c.send frame = (.ok (), c') ∧
      w'.encoders = Function.update w.encoders t.streamIndex (some (entry tb j t { c' with queue := [] })) ∧
      (∀ i, muxedTo i w'.log = muxedTo i w.log ++ if i = j then c'.queue.map (stampOf ff tb j t) else []) ∧
      ∀ e ∈ w'.log, e ∈ w.log ∨ e = .sendFrame t.streamIndex c.queue.length ∨
        ∃ data, e = .writeFrame (stampOf ff tb j t data) := by
  obtain ⟨c', hsend, henc, hlog⟩ := encodeFrame_ok h ht
  have hlog' : w'.log = w.log ++ .sendFrame t.streamIndex c.queue.length ::
      c'.queue.map fun data => .writeFrame (stampOf ff tb j t data) := hlog
  refine ⟨c', hsend, henc, ?_, ?_⟩
  · intro i
    rw [hlog', muxedTo_append, muxedTo_call]
  · intro e he
    rw [hlog', List.mem_append, List.mem_cons, List.mem_map] at he
    rcases he with he | he | ⟨data, -, rfl⟩
    · exact Or.inl he
    · exact Or.inr (Or.inl he)
    · exact Or.inr (Or.inr ⟨data, rfl⟩)

/-- stream i with the frames fed to it: its encoder has delivered all it had, and with what it still holds back that is
all it makes of the frames -/
structure Fed (ff : Ffmpeg P) (tb : ℕ → ℚ) (i : ℕ) (s : StreamInfo σ F P) (fs : List F) (w : FrameWriter σ F P)
    (c : Context σ F P) (emitted : List P) : Prop where
  entry : w.encoders s.streamIndex = some (entry tb i s c)
  idle : c.queue = []
  sending : c.draining = false
  muxed : muxedTo i w.log = emitted.map (stampOf ff tb i s)
  owed : ∀ rest, emitted ++ c.pending rest = s.encoder.outputs s.encoder.init (fs ++ rest)

/-- all that the encoder of stream i makes of its frames has been handed to the muxer -/
def Flushed (ff : Ffmpeg P) (tb : ℕ → ℚ) (i : ℕ) (s : StreamInfo σ F P) (fs : List F) (w : FrameWriter σ F P) : Prop :=
  muxedTo i w.log = (s.encoder.outputs s.encoder.init fs).map (stampOf ff tb i s)

/-- an encoder that has delivered all it had takes whatever it is sent -/
theorem Fed.ready {i : ℕ} {s : StreamInfo σ F P} {fs : List F} {c : Context σ F P} {emitted : List P}
    (h : Fed ff tb i s fs w c emitted) : c.ready = true := by
  rw [Context.ready, h.idle]
  rfl

/-- a frame for the stream -/
theorem Fed.take {i : ℕ} {s : StreamInfo σ F P} {fs : List F} {c : Context σ F P} {emitted : List P} {f : F}
    (h : Fed ff tb i s fs w c emitted) (hcall : w.encodeFrame ff s.streamIndex (some f) = some (.ok (), w')) :
    ∃ c' emitted', Fed ff tb i s (fs ++ [f]) w' c' emitted' := by
  obtain ⟨c', hsend, henc, hmux, -⟩ := encodeFrame_stream hcall h.entry
  rw [Context.send_ready h.sending h.ready] at hsend
  obtain rfl : c.take f = c' := (Prod.mk.inj hsend).2
  refine ⟨_, emitted ++ (c.take f).queue, ⟨by rw [henc, Function.update_self], rfl, ?_, ?_, ?_⟩⟩
  · exact h.sending
  · rw [hmux, if_pos rfl, h.muxed, List.map_append]
  · intro rest
    have howed := h.owed (f :: rest)
    rw [← Context.pending_take h.sending f rest] at howed
    rw [List.append_assoc fs, List.singleton_append, ← howed, List.append_assoc]
    rfl

/-- the null frame for the stream -/
theorem Fed.flush {i : ℕ} {s : StreamInfo σ F P} {fs : List F} {c : Context σ F P} {emitted : List P}
    (h : Fed ff tb i s fs w c emitted) (hcall : w.encodeFrame ff s.streamIndex none = some (.ok (), w')) :
    Flushed ff tb i s fs w' := by
  obtain ⟨c', hsend, -, hmux, -⟩ := encodeFrame_stream hcall h.entry
  rw [Context.send_ready h.sending h.ready] at hsend
  obtain rfl : c.drain = c' := (Prod.mk.inj hsend).2
  have howed := h.owed []
  rw [List.append_nil] at howed
  rw [Flushed, hmux, if_pos rfl, h.muxed, Context.pending_drain h.sending, ← List.map_append, howed]

/-- a call for another stream -/
theorem Fed.other {i j : ℕ} {s t : StreamInfo σ F P} {fs : List F} {c d : Context σ F P} {emitted : List P}
    {frame : Option F} (h : Fed ff tb i s fs w c emitted) (hij : i ≠ j) (hst : s.streamIndex ≠ t.streamIndex)
    (ht : w.encoders t.streamIndex = some (Writer.entry tb j t d))
    (hcall : w.encodeFrame ff t.streamIndex frame = some (.ok (), w')) : Fed ff tb i s fs w' c emitted := by
  obtain ⟨c', -, henc, hmux, -⟩ := encodeFrame_stream hcall ht
  refine ⟨?_, h.idle, h.sending, ?_, h.owed⟩
  · rw [henc, Function.update_of_ne hst]
    exact h.entry
  · rw [hmux, if_neg hij, List.append_nil]
    exact h.muxed

/-- what the log may hold before the trailer -/
structure LogOk (n : ℕ) (log : List (Event P)) : Prop where
  idle : ∀ k m, .sendFrame k m ∈ log → m = 0
  indexed : ∀ packet, .writeFrame packet ∈ log → packet.streamIndex < n
  noTrailer : .writeTrailer ∉ log

theorem LogOk.call {i n : ℕ} {s : StreamInfo σ F P} {fs : List F} {c : Context σ F P} {emitted : List P} {frame : Option F}
    (hlog : LogOk n w.log) (h : Fed ff tb i s fs w c emitted) (hi : i < n)
    (hcall : w.encodeFrame ff s.streamIndex frame = some (.ok (), w')) : LogOk n w'.log := by
  obtain ⟨c', -, -, -, hevents⟩ := encodeFrame_stream hcall h.entry
  refine ⟨?_, ?_, ?_⟩
  · intro k m he
    rcases hevents _ he with he | he | ⟨data, he⟩
    · exact hlog.idle k m he
    · rw [(Event.sendFrame.inj he).2, h.idle]
      rfl
    · cases he
  · intro packet he
    rcases hevents _ he with he | he | ⟨data, he⟩
    · exact hlog.indexed packet he
    · cases he
    · rw [Event.writeFrame.inj he]
      exact hi
  · intro he
    rcases hevents _ he with he | he | ⟨data, he⟩
    · exact hlog.noTrailer he
    · cases he
    · cases he

/-! ## Writes -/

/-- after writes of these frames, each stream is fed with its own -/
structure Written (ff : Ffmpeg P) (tb : ℕ → ℚ) (streams : List (StreamInfo σ F P)) (frames : List (Frame F))
    (w : FrameWriter σ F P) : Prop where
  fed : ∀ i s, streams[i]? = some s → ∃ c emitted, Fed ff tb i s (framesOf s.streamIndex frames) w c emitted
  others : ∀ k, k ∉ streams.map StreamInfo.streamIndex → w.encoders k = none
  log : LogOk streams.length w.log

theorem streamIndex_ne (hd : (streams.map StreamInfo.streamIndex).Nodup) {i j : ℕ} {s t : StreamInfo σ F P}
    (hs : streams[i]? = some s) (ht : streams[j]? = some t) (hij : i ≠ j) : s.streamIndex ≠ t.streamIndex := by
  intro h
  have hi : (streams.map StreamInfo.streamIndex)[i]? = some s.streamIndex := by simp [hs]
  have hj : (streams.map StreamInfo.streamIndex)[j]? = some s.streamIndex := by simp [ht, h]
  obtain ⟨hlt, -⟩ := List.getElem?_eq_some_iff.1 hi
  exact hij ((List.getElem?_inj hlt hd).1 (hi.trans hj.symm))

theorem created (hd : (streams.map StreamInfo.streamIndex).Nodup) :
    Written ff tb streams [] (FrameWriter.create tb streams) where
  fed i s hs := by
    refine ⟨Context.start s.encoder, [], ?_, rfl, rfl, rfl, ?_⟩
    · have hentry := createEncoders_entry tb hd hs 0 fun _ => none
      rwa [Nat.zero_add] at hentry
    · intro rest
      exact Context.pending_start s.encoder rest
  others k hk := createEncoders_other tb hk 0 _
  log := ⟨by simp [FrameWriter.create], by simp [FrameWriter.create], by simp [FrameWriter.create]⟩

theorem framesOf_snoc (k : ℤ) (fs : List (Frame F)) (f : Frame F) :
    framesOf k (fs ++ [f]) = framesOf k fs ++ if f.streamIndex = k then [f.frame] else [] := by
  by_cases h : f.streamIndex = k
  · simp [framesOf, h]
  · simp [framesOf, h]

/-- **One write.** It feeds the stream of its frame and no other. -/
theorem write_written (hd : (streams.map StreamInfo.streamIndex).Nodup) {fs : List (Frame F)} {f : Frame F}
    (h : Written ff tb streams fs w) (hwrite : w.write ff f = some (.ok (), w')) :
    Written ff tb streams (fs ++ [f]) w' := by
  rw [FrameWriter.write] at hwrite
  split_ifs at hwrite with hnone
  · cases hwrite
  · have hmem : f.streamIndex ∈ streams.map StreamInfo.streamIndex := by
      by_contra hno
      rw [h.others _ hno] at hnone
      exact hnone rfl
    obtain ⟨t, htmem, ht⟩ := List.mem_map.1 hmem
    obtain ⟨j, hj⟩ := List.mem_iff_getElem?.1 htmem
    obtain ⟨hlt, -⟩ := List.getElem?_eq_some_iff.1 hj
    obtain ⟨d, emitted, hfed⟩ := h.fed j t hj
    rw [← ht] at hwrite
    obtain ⟨d', -, henc, -⟩ := encodeFrame_stream hwrite hfed.entry
    refine ⟨?_, ?_, h.log.call hfed hlt hwrite⟩
    · intro i s hs
      rw [framesOf_snoc]
      by_cases hij : i = j
      · subst hij
        obtain rfl : t = s := Option.some.inj (hj.symm.trans hs)
        rw [if_pos ht.symm]
        exact hfed.take hwrite
      · have hne := streamIndex_ne hd hs hj hij
        rw [if_neg (fun hf => hne (hf.symm.trans ht.symm)), List.append_nil]
        obtain ⟨c, emitted', hfed'⟩ := h.fed i s hs
        exact ⟨c, emitted', hfed'.other hij hne hfed.entry hwrite⟩
    · intro k hk
      have hne : k ≠ t.streamIndex := fun hkt => hk (hkt ▸ List.mem_map_of_mem htmem)
      rw [henc, Function.update_of_ne hne]
      exact h.others k hk

theorem writes_written (hd : (streams.map StreamInfo.streamIndex).Nodup) {fs gs : List (Frame F)}
    (h : Written ff tb streams fs w) (hwrites : WritesOk ff w gs w') : Written ff tb streams (fs ++ gs) w' := by
  induction hwrites generalizing fs with
  | nil w => rwa [List.append_nil]
  | cons hwrite _ ih =>
    have hnext := ih (write_written hd h hwrite)
    rwa [List.append_assoc, List.singleton_append] at hnext

/-! ## The flush -/

/-- in the middle of a flush: the streams still to come are fed, the others are done -/
structure Flushing (ff : Ffmpeg P) (tb : ℕ → ℚ) (streams : List (StreamInfo σ F P)) (frames : List (Frame F))
    (rest : List ℤ) (w : FrameWriter σ F P) : Prop where
  fed : ∀ i s, streams[i]? = some s → s.streamIndex ∈ rest →
    ∃ c emitted, Fed ff tb i s (framesOf s.streamIndex frames) w c emitted
  done : ∀ i s, streams[i]? = some s → s.streamIndex ∉ rest →
    Flushed ff tb i s (framesOf s.streamIndex frames) w
  log : LogOk streams.length w.log

/-- **The flush, encoder by encoder.** Whatever the order of the map, a loop that ends OK has flushed every stream. -/
theorem flushEncoders_flushing (hd : (streams.map StreamInfo.streamIndex).Nodup) {frames : List (Frame F)}
    {rest : List ℤ} (hrest : rest.Nodup) (hsub : rest ⊆ streams.map StreamInfo.streamIndex)
    (h : Flushing ff tb streams frames rest w) (hflush : FrameWriter.flushEncoders ff rest w = some (.ok (), w')) :
    Flushing ff tb streams frames [] w' := by
  induction rest generalizing w with
  | nil =>
    cases hflush
    exact h
  | cons k rest ih =>
    obtain ⟨t, htmem, rfl⟩ := List.mem_map.1 (hsub List.mem_cons_self)
    obtain ⟨j, hj⟩ := List.mem_iff_getElem?.1 htmem
    obtain ⟨hlt, -⟩ := List.getElem?_eq_some_iff.1 hj
    obtain ⟨hk, hrest⟩ := List.nodup_cons.1 hrest
    obtain ⟨d, emitted, hfed⟩ := h.fed j t hj List.mem_cons_self
    rw [FrameWriter.flushEncoders] at hflush
    split at hflush
    · rename_i w₁ hcall
      refine ih hrest (fun x hx => hsub (List.mem_cons_of_mem _ hx)) ⟨?_, ?_, h.log.call hfed hlt hcall⟩ hflush
      · intro i s hs hmem
        have hne : s.streamIndex ≠ t.streamIndex := fun he => hk (he ▸ hmem)
        have hij : i ≠ j := by
          intro hij
          subst hij
          exact hne (congrArg StreamInfo.streamIndex (Option.some.inj (hs.symm.trans hj)))
        obtain ⟨c, emitted', hfed'⟩ := h.fed i s hs (List.mem_cons_of_mem _ hmem)
        exact ⟨c, emitted', hfed'.other hij hne hfed.entry hcall⟩
      · intro i s hs hmem
        by_cases hij : i = j
        · subst hij
          obtain rfl : t = s := Option.some.inj (hj.symm.trans hs)
          exact hfed.flush hcall
        · have hne := streamIndex_ne hd hs hj hij
          obtain ⟨c', -, -, hmux, -⟩ := encodeFrame_stream hcall hfed.entry
          have hdone := h.done i s hs (by simp [hne, hmem])
          rwa [Flushed, hmux, if_neg hij, List.append_nil]
    · rename_i hno
      exact absurd hflush (hno w')

/-- a flush that returns OK ends with the trailer, and every stream is flushed before it -/
theorem flush_flushed (hd : (streams.map StreamInfo.streamIndex).Nodup) {frames : List (Frame F)}
    (h : Written ff tb streams frames w) {order : List ℤ} (horder : order.Perm (streams.map StreamInfo.streamIndex))
    (hflush : w.flush ff order = some (.ok (), w')) :
    ∃ w₁, Flushing ff tb streams frames [] w₁ ∧ w'.log = w₁.log ++ [.writeTrailer] := by
  rw [FrameWriter.flush] at hflush
  split at hflush
  · rename_i w₁ hloop
    have hstart : Flushing ff tb streams frames order w := by
      refine ⟨fun i s hs _ => h.fed i s hs, fun i s hs hmem => absurd ?_ hmem, h.log⟩
      exact horder.mem_iff.2 (List.mem_map_of_mem (List.mem_of_getElem? hs))
    refine ⟨w₁, flushEncoders_flushing hd (horder.nodup_iff.2 hd) horder.subset hstart hloop, ?_⟩
    rw [FrameWriter.writeTrailer] at hflush
    cases hf : ff.fault w₁.calls with
    | some code =>
      simp only [hf] at hflush
      cases hflush
    | none =>
      simp only [hf] at hflush
      cases hflush
      rfl
  · rename_i hno
    exact absurd hflush (hno w')

theorem muxedTo_trailer (i : ℕ) (log : List (Event P)) : muxedTo i (log ++ [.writeTrailer]) = muxedTo i log := by
  rw [muxedTo_append]
  exact List.append_nil _

/-- **Each packet once.** For distinct streams, writes of frames in any order and a flush in any order of the map, all
returning OK: each output stream is handed, in order, exactly the packets its encoder makes of its frames, rescaled and
with its index; there is no other packet; the trailer comes last; no encoder is sent a frame while it has packets
undelivered; and another order of the map hands each output stream the same. -/
theorem muxes_each_packet_once (hd : (streams.map StreamInfo.streamIndex).Nodup) {frames : List (Frame F)}
    {order : List ℤ} (horder : order.Perm (streams.map StreamInfo.streamIndex))
    (hwrites : WritesOk ff (FrameWriter.create tb streams) frames w) (hflush : w.flush ff order = some (.ok (), w')) :
    (∀ i s, streams[i]? = some s → muxedTo i w'.log =
      (s.encoder.outputs s.encoder.init (framesOf s.streamIndex frames)).map (stampOf ff tb i s)) ∧
    (∀ packet ∈ muxed w'.log, packet.streamIndex < streams.length) ∧
    (∃ log, w'.log = log ++ [.writeTrailer] ∧ .writeTrailer ∉ log) ∧
    (∀ k n, .sendFrame k n ∈ w'.log → n = 0) ∧
    ∀ order' w'', order'.Perm (streams.map StreamInfo.streamIndex) → w.flush ff order' = some (.ok (), w'') →
      ∀ i, i < streams.length → muxedTo i w''.log = muxedTo i w'.log := by
  have hcreated : Written ff tb streams [] (FrameWriter.create tb streams) := created hd
  have hwritten := writes_written hd hcreated hwrites
  rw [List.nil_append] at hwritten
  obtain ⟨w₁, hdone, hlog⟩ := flush_flushed hd hwritten horder hflush
  have hstream : ∀ i s, streams[i]? = some s → muxedTo i w'.log =
      (s.encoder.outputs s.encoder.init (framesOf s.streamIndex frames)).map (stampOf ff tb i s) := by
    intro i s hs
    rw [hlog, muxedTo_trailer]
    exact hdone.done i s hs List.not_mem_nil
  refine ⟨hstream, ?_, ⟨w₁.log, hlog, hdone.log.noTrailer⟩, ?_, ?_⟩
  · intro packet hpacket
    obtain ⟨e, he, hp⟩ := List.mem_filterMap.1 hpacket
    rw [hlog, List.mem_append] at he
    rcases he with he | he
    · cases e with
      | writeFrame packet' =>
        cases hp
        exact hdone.log.indexed packet he
      | sendFrame k n => cases hp
      | writeTrailer => cases hp
    · rw [List.mem_singleton.1 he] at hp
      cases hp
  · intro k n he
    rw [hlog, List.mem_append] at he
    rcases he with he | he
    · exact hdone.log.idle k n he
    · cases List.mem_singleton.1 he
  · intro order' w'' horder' hflush' i hi
    obtain ⟨w₂, hdone', hlog'⟩ := flush_flushed hd hwritten horder' hflush'
    have hs := List.getElem?_eq_getElem hi
    rw [hstream i _ hs, hlog', muxedTo_trailer]
    exact hdone'.done i _ hs List.not_mem_nil

end Runs

/-- an encoder that holds each frame back until the next one comes -/
def lookahead : Codec (Option ℕ) ℕ ℕ where
  init := none
  take held f := (some f, held.toList)
  flush held := held.toList
  busy _ _ := false

/-- two streams, the frames of which alternate -/
def twoStreams : List (StreamInfo (Option ℕ) ℕ ℕ) := [⟨0, 1, lookahead⟩, ⟨2, 1, lookahead⟩]

/-- nothing of FFmpeg fails -/
def neverFails : Ffmpeg ℕ := ⟨fun _ => none, fun _ _ data => data, fun _ => ""⟩

/-- three frames of the two, and a flush that begins with the second stream -/
theorem two_streams_muxed :
    ∃ w w', WritesOk neverFails (FrameWriter.create (fun _ => 1) twoStreams) [⟨0, 10⟩, ⟨2, 20⟩, ⟨0, 11⟩] w ∧
      w.flush neverFails [2, 0] = some (.ok (), w') ∧
      muxedTo 0 w'.log = [⟨some 10, 0⟩, ⟨some 11, 0⟩] ∧ muxedTo 1 w'.log = [⟨some 20, 1⟩] := by
  have hd : (twoStreams.map StreamInfo.streamIndex).Nodup := by decide
  have horder : [2, 0].Perm (twoStreams.map StreamInfo.streamIndex) := List.Perm.swap 0 2 []
  obtain ⟨w, hwrites, w', hflush⟩ : ∃ w, WritesOk neverFails (FrameWriter.create (fun _ => 1) twoStreams)
      [⟨0, 10⟩, ⟨2, 20⟩, ⟨0, 11⟩] w ∧ ∃ w', w.flush neverFails [2, 0] = some (.ok (), w') :=
    ⟨_, .cons rfl (.cons rfl (.cons rfl (.nil _))), _, rfl⟩
  obtain ⟨hstream, -⟩ := muxes_each_packet_once hd horder hwrites hflush
  exact ⟨w, w', hwrites, hflush, hstream 0 _ rfl, hstream 1 _ rfl⟩

end Viduce.Writer
