/-
Who holds what FFmpeg and LiteRT allocate while frames go through the engine (`frame.cc`, `frame_reader.cc`, `upscaler.cc`,
`model_impl.cc`, `frame_writer.cc`). A frame owns its AVFrame and the buffers that refers to; a packet owns its payload until
it is unreferenced or the muxer takes it over; a colour conversion owns its context, a run of the model its tensor buffers.

- `readNextFrame_fetches`: a call of the reader is what it is without its handles, a frame that cannot be allocated apart; the
  frame it returns and the payload of its packet are left to be released.
- `upscale_value`, `upscale_owes`: the same for the upscaler and the frame it returns.
- `write_writes`, `flush_writes`: the same for the writer, which destroys the frame it is given.

A guard or a destructor runs on every return behind it, the later one first.
-/
import Mathlib.Tactic
import Viduce.Engine.FrameReader
import Viduce.Engine.FrameWriter
import Viduce.Engine.Handles
import Viduce.Engine.Upscaler

namespace Viduce.FrameHandles

open Viduce.Absl Viduce.Ledger Viduce.SendReceive
open Viduce.Handles (Kind Pointer alloc free owes_alloc owes_free)
open Viduce.Engine (FrameReader)
open Viduce.Writer (FrameWriter)

variable {σ P F π α β : Type}

/-! ## Frames -/

/-- a frame with its AVFrame, and the buffers that refers to -/
structure Held (α : Type) where
  frame : α
  avFrame : ℕ
  buffers : Pointer

def Held.handles (f : Held α) : List ℕ := f.buffers.toList ++ [f.avFrame]

/-- `~Frame`: `av_frame_free` lets go of the buffers -/
def Held.destroy (f : Held α) (l : Ledger Kind) : Ledger Kind := free (some f.avFrame) (free f.buffers l)

/-- the frame as another stage takes it -/
def Held.map (g : α → β) (f : Held α) : Held β := ⟨g f.frame, f.avFrame, f.buffers⟩

/-- `av_frame_alloc` -/
def avFrameAlloc (fails : Bool) (l : Ledger Kind) : Pointer × Ledger Kind := alloc .avFrame (!fails) l

/-! ## The reader -/

/-- a reader, and what its packet refers to -/
structure HeldReader (σ P F : Type) where
  reader : FrameReader σ P F
  payload : Pointer

/-- what `ReadNextFrame` returns -/
abbrev Fetched (F : Type) : Type := Except Engine.Status (Option (Held (Engine.Frame F)))

section Reader

-- `util::AvErrToStr`, FFmpeg's error texts
variable (avErrToStr : Refusal → String)

/-- the body of the loop from `Frame::Create` on; `none` is `continue`. The frame is destroyed unless it is returned. -/
def HeldReader.receive (r : HeldReader σ P F) (streamIndex : ℤ) (codec : Context σ P F) (frameFails : Bool)
    (l : Ledger Kind) : Option (Fetched F) × HeldReader σ P F × Ledger Kind :=
  let index := streamIndex.toNat
  match avFrameAlloc frameFails l with
  | (none, l) => (some (.error ⟨"Failed to allocate av_frame"⟩), { r with reader := r.reader.setCodec index codec }, l)
  | (some avFrame, l) =>
    let mediaType := r.reader.formatCtx.streams[index]?.elim .unknown Engine.AVStream.codecType
    let received := codec.receive
    let r' := { r with reader := r.reader.setCodec index received.2 }
    match received.1 with
    -- more packets are needed before frames can be received
    | .error .eagain => (none, r', free (some avFrame) l)
    | .error .eof => (some (.ok none), r', free (some avFrame) l)
    | .error e =>
      (some (.error ⟨s!"Error receiving frame for decoding with error: {avErrToStr e}"⟩), r', free (some avFrame) l)
    | .ok frame => (some (.ok (some ⟨⟨streamIndex, mediaType, frame⟩, avFrame, some l.next⟩)), r', l.allocate .buffer)

/-- the body of the loop, from the packet on -/
def HeldReader.feed (r : HeldReader σ P F) (packet : Engine.AVPacket P) (frameFails : Bool) (l : Ledger Kind) :
    Option (Fetched F) × HeldReader σ P F × Ledger Kind :=
  if h : packet.streamIndex < 0 ∨ r.reader.codecs.length ≤ packet.streamIndex.toNat then
    let streams := r.reader.codecs.length
    (some (.error ⟨s!"Packet has out-of-range stream_index: {packet.streamIndex} (have {streams} streams)"⟩), r, l)
  else
    let index := packet.streamIndex.toNat
    have hindex : index < r.reader.codecs.length := by omega
    match r.reader.codecs[index].send packet.data with
    | (.ok (), codec) | (.error .eof, codec) => r.receive avErrToStr packet.streamIndex codec frameFails l
    | (.error e, codec) =>
      (some (.error ⟨s!"Error sending packet for decoding with error: {avErrToStr e}"⟩),
        { r with reader := r.reader.setCodec index codec }, l)

/-- one iteration of the loop: the packet is unreferenced, and refers to what `av_read_frame` reads -/
def HeldReader.iterate (r : HeldReader σ P F) (frameFails : Bool) (l : Ledger Kind) :
    Option (Fetched F) × HeldReader σ P F × Ledger Kind :=
  let l := free r.payload l
  let read := Engine.avReadFrame r.reader.formatCtx
  let reader := { r.reader with formatCtx := read.2 }
  match read.1 with
  | .ok packet => HeldReader.feed avErrToStr ⟨reader, some l.next⟩ packet frameFails (l.allocate .buffer)
  | .error .eof => HeldReader.feed avErrToStr ⟨reader, none⟩ Engine.AVPacket.blank frameFails l
  | .error e => (some (.error ⟨s!"Error reading frame with error: {avErrToStr e}"⟩), ⟨reader, none⟩, l)

/-- `while (true)`, for so many iterations from the m-th on; in those of `frameFails` no frame can be allocated -/
def HeldReader.loop (frameFails : ℕ → Bool) :
    ℕ → ℕ → HeldReader σ P F → Ledger Kind → Option (Fetched F × HeldReader σ P F × Ledger Kind)
  | 0, _, _, _ => none
  | fuel + 1, m, r, l =>
    match r.iterate avErrToStr (frameFails m) l with
    | (some result, r, l) => some (result, r, l)
    | (none, r, l) => HeldReader.loop frameFails fuel (m + 1) r l

/-- `ReadNextFrame` -/
def HeldReader.readNextFrame (r : HeldReader σ P F) (frameFails : ℕ → Bool) (l : Ledger Kind) :
    Option (Fetched F × HeldReader σ P F × Ledger Kind) :=
  r.loop avErrToStr frameFails (r.reader.formatCtx.reads.length + 1) 0 l

end Reader

/-! ## The upscaler -/

section Upscaler

variable (ff : Upscale.Ffmpeg π)

/-- `ConvertColor` -/
def convertColor (faults : Upscale.ConversionFaults) (input : Upscale.Frame π) (spec : Upscale.ConversionSpec)
    (l : Ledger Kind) : Except Status (Held (Upscale.Frame π)) × Ledger Kind :=
  match alloc .swsContext (!faults.contextFails) l with
  | (none, l) => (.error ⟨.internal, "Failed to create SwsContext"⟩, free none l)
  | (some ctx, l) =>
    match avFrameAlloc faults.allocFails l with
    | (none, l) => (.error ⟨.internal, "Failed to allocate av_frame"⟩, free (some ctx) l)
    | (some dst, l) =>
      match faults.scaleFails with
      | some res =>
        (.error ⟨.internal, "Failed to scale frame with error: " ++ ff.avErrToStr res⟩, free (some ctx) (free (some dst) l))
      | none =>
        (.ok ⟨⟨input.streamIndex, input.mediaType,
          ⟨spec.width, spec.height, spec.pixFmt, ff.scaleFrame input.frame spec, input.frame.props⟩⟩, dst, some l.next⟩,
          free (some ctx) (l.allocate .buffer))

/-- `ToModelIo` -/
def toModelIo (frame : Upscale.Frame π) (l : Ledger Kind) : Except Status Upscale.ModelIo × Ledger Kind :=
  match convertColor ff ff.toRgb frame ⟨frame.frame.width, frame.frame.height, .gbr24p⟩ l with
  | (.error status, l) => (.error status, l)
  | (.ok rgb, l) => (.ok ⟨Upscale.normalize rgb.frame.frame⟩, rgb.destroy l)

/-- `ModelImpl::RunModel` -/
def runModel (lite : Upscale.LiteRt) (input : Upscale.ModelIo) (l : Ledger Kind) :
    Except Status Upscale.ModelIo × Ledger Kind :=
  match lite.createInputFails with
  | some status => (.error status, l)
  | none =>
    let inputBuffers := l.next
    let l := l.allocate .tensorBuffers
    -- a write that fails has no effect, and its error is dropped
    let written :=
      if input.data.length = Upscale.inputLength ∧ lite.writeFails = false then input.data else lite.fresh
    match lite.createOutputFails with
    | some status => (.error status, l.release inputBuffers)
    | none =>
      let outputBuffers := l.next
      let l := l.allocate .tensorBuffers
      let result : Except Status Upscale.ModelIo := do
        Upscale.returnIfError lite.runFails
        Upscale.returnIfError lite.sizeFails
        let outputLength := Upscale.outputSize / 4
        Upscale.returnIfError lite.readFails
        let output := (lite.run written).val.take outputLength
        pure ⟨output.map fun val => min (max val 0) 1⟩
      (result, (l.release outputBuffers).release inputBuffers)

/-- `FromModelIo` -/
def fromModelIo (input : Upscale.Frame π) (output : Upscale.ModelIo) (outScale : ℕ) (l : Ledger Kind) :
    Except Status (Held (Upscale.Frame π)) × Ledger Kind :=
  let denormalized := output.data.map Upscale.denormalize
  match avFrameAlloc ff.tempAllocFails l with
  | (none, l) => (.error ⟨.internal, "Failed to allocate av_frame"⟩, l)
  | (some temp, l) =>
    let width := input.frame.width * outScale
    let height := input.frame.height * outScale
    match ff.fillFails with
    | some size =>
      (.error ⟨.internal, "Failed to create temp output RGB Frame: " ++ ff.avErrToStr size⟩, free (some temp) l)
    | none =>
      let tempFrame : Upscale.Frame π := ⟨input.streamIndex, input.mediaType,
        ⟨width, height, .gbr24p, Upscale.fillArrays denormalized width height, input.frame.props⟩⟩
      let converted := convertColor ff ff.fromRgb tempFrame ⟨width, height, input.frame.format⟩ l
      (converted.1, free (some temp) converted.2)

/-- `Upscale` of a frame that is not null -/
def upscale (lite : Upscale.LiteRt) (inputFrame : Upscale.Frame π) (l : Ledger Kind) :
    Except Status (Held (Upscale.Frame π)) × Ledger Kind :=
  match Upscale.validate (some inputFrame) with
  | .error status => (.error status, l)
  | .ok frame =>
    match toModelIo ff frame l with
    | (.error status, l) => (.error status, l)
    | (.ok input, l) =>
      match runModel lite input l with
      | (.error status, l) => (.error status, l)
      | (.ok output, l) => fromModelIo ff frame output Upscale.kUpscale l

end Upscaler

/-! ## The writer -/

/-- a writer, and what its packet refers to -/
structure HeldWriter (σ F P : Type) where
  writer : FrameWriter σ F P
  payload : Pointer

section Writer

variable (ff : Writer.Ffmpeg P)

/-- `while (true)` of `EncodeFrame`, for so many iterations; `none` is that they do not suffice -/
def HeldWriter.drainLoop (streamIndex : ℤ) :
    ℕ → Writer.EncoderInfo σ F P → HeldWriter σ F P → Ledger Kind →
      Option (Except Status Unit × HeldWriter σ F P × Ledger Kind)
  | 0, _, _, _ => none
  | fuel + 1, info, w, l =>
    let l := free w.payload l
    match ({ w.writer with packet := Writer.AVPacket.blank } : FrameWriter σ F P).receivePacket ff streamIndex info with
    -- the encoder is flushed, or needs more frames
    | (.error .eof, w) | (.error .eagain, w) => some (.ok (), ⟨w, none⟩, l)
    | (.error e, w) =>
      some (.error ⟨.internal, s!"Error receiving packet for encoding with error: {ff.avErrToStr e} for stream index: " ++
        s!"{streamIndex}"⟩, ⟨w, none⟩, l)
    | (.ok info, w) =>
      let payload := l.next
      let l := l.allocate .buffer
      let packet : Writer.AVPacket P :=
        ⟨w.packet.data.map (ff.rescaleTs info.timeBase info.encodingStream.timeBase), info.encodingStream.index⟩
      -- the muxer takes the payload over, also when it fails
      match ({ w with packet := packet } : FrameWriter σ F P).interleavedWriteFrame ff with
      | (.error e, w) =>
        some (.error ⟨.internal, s!"Error writing packet with error: {ff.avErrToStr e} for stream index: {streamIndex}"⟩,
          ⟨w, none⟩, l.release payload)
      | (.ok (), w) => HeldWriter.drainLoop streamIndex fuel info ⟨w, none⟩ (l.release payload)

/-- `EncodeFrame`; without an encoder `encoders_.at` throws, which is `none` -/
def HeldWriter.encodeFrame (w : HeldWriter σ F P) (streamIndex : ℤ) (frame : Option F) (l : Ledger Kind) :
    Option (Except Status Unit × HeldWriter σ F P × Ledger Kind) :=
  match w.writer.encoders streamIndex with
  | none => none
  | some encoderInfo =>
    match w.writer.sendFrame ff streamIndex encoderInfo frame with
    | (.error e, writer) =>
      some (.error ⟨.internal, s!"Error sending frame for encoding with error: {ff.avErrToStr e} for stream index: " ++
        s!"{streamIndex}"⟩, ⟨writer, w.payload⟩, l)
    | (.ok info, writer) =>
      HeldWriter.drainLoop ff streamIndex (info.encoderCtx.queue.length + 1) info ⟨writer, w.payload⟩ l

/-- `Write`, which the frame is moved into and destroyed with -/
def HeldWriter.write (w : HeldWriter σ F P) (frame : Held (Writer.Frame F)) (l : Ledger Kind) :
    Option (Except Status Unit × HeldWriter σ F P × Ledger Kind) :=
  let streamIndex := frame.frame.streamIndex
  if (w.writer.encoders streamIndex).isNone then
    some (.error ⟨.notFound, s!"No encoder configured for stream index: {streamIndex}"⟩, w, frame.destroy l)
  else
    match w.encodeFrame ff streamIndex (some frame.frame.frame) l with
    | none => none
    | some (status, w, l) => some (status, w, frame.destroy l)

/-- the loop of `Flush`, over the stream indices in the order of the map -/
def HeldWriter.flushEncoders :
    List ℤ → HeldWriter σ F P → Ledger Kind → Option (Except Status Unit × HeldWriter σ F P × Ledger Kind)
  | [], w, l => some (.ok (), w, l)
  | streamIndex :: rest, w, l =>
    match w.encodeFrame ff streamIndex none l with
    | some (.ok (), w, l) => HeldWriter.flushEncoders rest w l
    | out => out

/-- `Flush` -/
def HeldWriter.flush (w : HeldWriter σ F P) (order : List ℤ) (l : Ledger Kind) :
    Option (Except Status Unit × HeldWriter σ F P × Ledger Kind) :=
  match HeldWriter.flushEncoders ff order w l with
  | some (.ok (), w, l) =>
    match w.writer.writeTrailer ff with
    | (.error e, writer) =>
      some (.error ⟨.internal, s!"Failed to write trailer with error: {ff.avErrToStr e}"⟩, ⟨writer, w.payload⟩, l)
    | (.ok (), writer) => some (.ok (), ⟨writer, w.payload⟩, l)
  | out => out

end Writer

/-! ## What a call leaves unreleased -/

section Owed

variable {l : Ledger Kind} {owed : List ℕ}

theorem owes_destroy {f : Held α} (h : l.Owes (f.handles ++ owed)) : (f.destroy l).Owes owed := by
  rw [Held.handles, List.append_assoc] at h
  exact owes_free (owes_free h)

/-- a frame that gets its buffers -/
theorem owes_held {avFrame : ℕ} (h : l.Owes (avFrame :: owed)) (frame : α) :
    (l.allocate .buffer).Owes ((Held.mk frame avFrame (some l.next)).handles ++ owed) := by
  have hallocated := h.allocate .buffer
  rwa [Held.handles, List.append_assoc]

end Owed

/-! ## The reader without its handles -/

section ReaderSpec

variable {avErrToStr : Refusal → String} {r : HeldReader σ P F} {l : Ledger Kind} {owed : List ℕ}

def Fetched.value (result : Fetched F) : Engine.Result F := result.map (Option.map Held.frame)

/-- the handles of the frame that is returned -/
def Fetched.handles : Fetched F → List ℕ
  | .ok (some f) => f.handles
  | _ => []

/-- a step is the reader's own, or its frame cannot be allocated; the frame that is returned and the payload are owed -/
structure Steps (plain : Option (Engine.Result F) × FrameReader σ P F) (frameFails : Bool) (owed : List ℕ)
    (step : Option (Fetched F) × HeldReader σ P F × Ledger Kind) : Prop where
  value : plain = (step.1.map Fetched.value, step.2.1.reader) ∨ frameFails = true ∧ ∃ status, step.1 = some (.error status)
  owes : step.2.2.Owes (step.1.elim [] Fetched.handles ++ (step.2.1.payload.toList ++ owed))

/-- once a packet is sent: the frame is returned, or it is destroyed, or there is none -/
theorem feed_steps (h : l.Owes (r.payload.toList ++ owed)) (packet : Engine.AVPacket P) (frameFails : Bool) :
    Steps (r.reader.feed avErrToStr packet) frameFails owed (r.feed avErrToStr packet frameFails l) := by
  unfold HeldReader.feed FrameReader.feed
  by_cases hrange : packet.streamIndex < 0 ∨ r.reader.codecs.length ≤ packet.streamIndex.toNat
  · rw [dif_pos hrange, dif_pos hrange]
    exact ⟨Or.inl rfl, h⟩
  · rw [dif_neg hrange, dif_neg hrange]
    dsimp only
    generalize r.reader.codecs[packet.streamIndex.toNat].send packet.data = sent
    obtain ⟨answer, codec⟩ := sent
    have halloc := owes_alloc h .avFrame (!frameFails)
    rcases answer with (_ | _ | _) | _
    · exact ⟨Or.inl rfl, h⟩
    rotate_left
    · exact ⟨Or.inl rfl, h⟩
    -- the packet is taken, or the decoder has had its blank packet
    all_goals
      dsimp only
      unfold HeldReader.receive avFrameAlloc
      cases frameFails with
      | true => exact ⟨Or.inr ⟨rfl, _, rfl⟩, h⟩
      | false =>
        dsimp only [alloc, Bool.not_false, if_true]
        rcases codec.receive with ⟨(_ | _ | _) | frame, codec'⟩
        · exact ⟨Or.inl rfl, owes_free halloc⟩
        · exact ⟨Or.inl rfl, owes_free halloc⟩
        · exact ⟨Or.inl rfl, owes_free halloc⟩
        · exact ⟨Or.inl rfl, owes_held halloc _⟩

theorem iterate_steps (h : l.Owes (r.payload.toList ++ owed)) (frameFails : Bool) :
    Steps (r.reader.iterate avErrToStr) frameFails owed (r.iterate avErrToStr frameFails l) := by
  have hfree := owes_free h
  unfold HeldReader.iterate FrameReader.iterate
  dsimp only
  rcases Engine.avReadFrame r.reader.formatCtx with ⟨(_ | _ | _) | packet, formatCtx⟩
  · exact ⟨Or.inl rfl, hfree⟩
  · exact feed_steps (r := ⟨{ r.reader with formatCtx := formatCtx }, none⟩) hfree _ _
  · exact ⟨Or.inl rfl, hfree⟩
  · exact feed_steps (r := ⟨{ r.reader with formatCtx := formatCtx }, some (free r.payload l).next⟩)
      (hfree.allocate .buffer) _ _

/-- a loop of the reader, with its handles -/
theorem loop_fetches {fuel : ℕ} {result : Engine.Result F} {reader : FrameReader σ P F}
    (h : l.Owes (r.payload.toList ++ owed)) (hloop : r.reader.loop avErrToStr fuel = some (result, reader))
    (frameFails : ℕ → Bool) (m : ℕ) :
    ∃ fetched r' l', r.loop avErrToStr frameFails fuel m l = some (fetched, r', l') ∧
      l'.Owes (Fetched.handles fetched ++ (r'.payload.toList ++ owed)) ∧
      (Fetched.value fetched = result ∧ r'.reader = reader ∨
        (∃ m, frameFails m = true) ∧ ∃ status, fetched = .error status) := by
  induction fuel generalizing r l m with
  | zero => cases hloop
  | succ fuel ih =>
    have hsteps : Steps (r.reader.iterate avErrToStr) _ owed (r.iterate avErrToStr _ l) := iterate_steps h (frameFails m)
    rw [FrameReader.loop] at hloop
    rw [HeldReader.loop]
    generalize r.iterate avErrToStr (frameFails m) l = step at hsteps
    obtain ⟨out, r', l'⟩ := step
    obtain ⟨hvalue, howes⟩ := hsteps
    rcases hvalue with hvalue | ⟨hfails, status, hstatus⟩
    · rw [hvalue] at hloop
      cases out with
      | none => exact ih howes hloop (m + 1)
      | some fetched =>
        cases hloop
        exact ⟨fetched, r', l', rfl, howes, Or.inl ⟨rfl, rfl⟩⟩
    · obtain rfl : out = some (.error status) := hstatus
      exact ⟨_, r', l', rfl, howes, Or.inr ⟨⟨m, hfails⟩, status, rfl⟩⟩

/-- **Reading.** A call of `ReadNextFrame` is the reader's own, a frame that cannot be allocated apart, and it leaves the
frame it returns and the payload of its packet to be released. -/
theorem readNextFrame_fetches (h : l.Owes (r.payload.toList ++ owed)) (frameFails : ℕ → Bool) :
    ∃ fetched r' l', r.readNextFrame avErrToStr frameFails l = some (fetched, r', l') ∧
      l'.Owes (Fetched.handles fetched ++ (r'.payload.toList ++ owed)) ∧
      (r.reader.readNextFrame avErrToStr = some (Fetched.value fetched, r'.reader) ∨
        (∃ m, frameFails m = true) ∧ ∃ status, fetched = .error status) := by
  obtain ⟨⟨result, reader⟩, hcall⟩ := Option.isSome_iff_exists.1 (Engine.readNextFrame_isSome avErrToStr r.reader)
  obtain ⟨fetched, r', l', hrun, howes, hvalue⟩ := loop_fetches h hcall frameFails 0
  refine ⟨fetched, r', l', hrun, howes, hvalue.imp_left ?_⟩
  rintro ⟨rfl, rfl⟩
  exact hcall

end ReaderSpec

/-! ## The upscaler without its handles -/

section UpscalerSpec

variable {l : Ledger Kind} {owed : List ℕ} (ff : Upscale.Ffmpeg π) (lite : Upscale.LiteRt)

theorem convertColor_value (faults : Upscale.ConversionFaults) (input : Upscale.Frame π) (spec : Upscale.ConversionSpec)
    (l : Ledger Kind) :
    (convertColor ff faults input spec l).1.map Held.frame = Upscale.convertColor ff faults input spec := by
  obtain ⟨contextFails, allocFails, scaleFails⟩ := faults
  cases contextFails with
  | true => rfl
  | false =>
    cases allocFails with
    | true => rfl
    | false => cases scaleFails <;> rfl

/-- the context is freed, and the frame unless it is returned -/
theorem convertColor_owes (h : l.Owes owed) (faults : Upscale.ConversionFaults) (input : Upscale.Frame π)
    (spec : Upscale.ConversionSpec) : Returns Held.handles (convertColor ff faults input spec l) owed := by
  have hctx := owes_alloc h .swsContext (!faults.contextFails)
  unfold convertColor
  cases hcontext : alloc .swsContext (!faults.contextFails) l with
  | mk ctx l₁ =>
    rw [hcontext] at hctx
    cases ctx with
    | none => exact hctx
    | some ctx =>
      have hframe := owes_alloc hctx .avFrame (!faults.allocFails)
      dsimp only
      cases hdst : avFrameAlloc faults.allocFails l₁ with
      | mk dst l₂ =>
        rw [avFrameAlloc] at hdst
        rw [hdst] at hframe
        cases dst with
        | none => exact Owes.release hframe
        | some dst =>
          cases faults.scaleFails with
          | some res => exact Owes.release (Owes.release hframe)
          | none =>
            have hmoved : (ctx :: ([l₂.next, dst] ++ owed)).Perm ([l₂.next, dst] ++ ctx :: owed) := List.perm_middle.symm
            exact Owes.release ((hframe.allocate .buffer).perm hmoved)

theorem toModelIo_value (frame : Upscale.Frame π) (l : Ledger Kind) :
    (toModelIo ff frame l).1 = Upscale.toModelIo ff frame := by
  have hconvert := convertColor_value ff ff.toRgb frame ⟨frame.frame.width, frame.frame.height, .gbr24p⟩ l
  unfold toModelIo Upscale.toModelIo
  rw [← hconvert]
  rcases convertColor ff ff.toRgb frame _ l with ⟨_ | rgb, l'⟩
  · rfl
  · rfl

theorem toModelIo_owes (h : l.Owes owed) (frame : Upscale.Frame π) : (toModelIo ff frame l).2.Owes owed := by
  have hconvert := convertColor_owes ff h ff.toRgb frame ⟨frame.frame.width, frame.frame.height, .gbr24p⟩
  unfold toModelIo
  generalize convertColor ff ff.toRgb frame _ l = converted at hconvert ⊢
  obtain ⟨_ | rgb, l'⟩ := converted
  · exact hconvert
  · exact owes_destroy hconvert

theorem runModel_value (input : Upscale.ModelIo) (l : Ledger Kind) : (runModel lite input l).1 = lite.runModel input := by
  unfold runModel Upscale.LiteRt.runModel
  cases lite.createInputFails with
  | some status => rfl
  | none => cases lite.createOutputFails <;> rfl

theorem runModel_owes (h : l.Owes owed) (input : Upscale.ModelIo) : (runModel lite input l).2.Owes owed := by
  unfold runModel
  cases lite.createInputFails with
  | some status => exact h
  | none =>
    have hinput := h.allocate .tensorBuffers
    cases lite.createOutputFails with
    | some status => exact hinput.release
    | none => exact (hinput.allocate .tensorBuffers).release.release

theorem fromModelIo_value (input : Upscale.Frame π) (output : Upscale.ModelIo) (outScale : ℕ) (l : Ledger Kind) :
    (fromModelIo ff input output outScale l).1.map Held.frame = Upscale.fromModelIo ff input output outScale := by
  unfold fromModelIo
  by_cases hcalls : ff.tempAllocFails = false ∧ ff.fillFails = none
  · obtain ⟨halloc, hfill⟩ := hcalls
    rw [Upscale.fromModelIo, Upscale.tempFrame_ok halloc hfill, bind_ok rfl, halloc, hfill]
    exact convertColor_value ff ff.fromRgb _ _ _
  · rw [Upscale.fromModelIo, Upscale.tempFrame]
    cases halloc : ff.tempAllocFails with
    | true => rfl
    | false =>
      cases hfill : ff.fillFails with
      | some size => rfl
      | none => exact absurd ⟨halloc, hfill⟩ hcalls

/-- the temporary frame is destroyed -/
theorem fromModelIo_owes (h : l.Owes owed) (input : Upscale.Frame π) (output : Upscale.ModelIo) (outScale : ℕ) :
    Returns Held.handles (fromModelIo ff input output outScale l) owed := by
  have htemp := owes_alloc h .avFrame (!ff.tempAllocFails)
  unfold fromModelIo
  dsimp only
  cases halloc : avFrameAlloc ff.tempAllocFails l with
  | mk temp l₁ =>
    rw [avFrameAlloc] at halloc
    rw [halloc] at htemp
    cases temp with
    | none => exact htemp
    | some temp =>
      cases ff.fillFails with
      | some size => exact htemp.release
      | none =>
        have hconvert := convertColor_owes ff htemp ff.fromRgb ⟨input.streamIndex, input.mediaType,
          ⟨input.frame.width * outScale, input.frame.height * outScale, .gbr24p,
            Upscale.fillArrays (output.data.map Upscale.denormalize) (input.frame.width * outScale)
              (input.frame.height * outScale), input.frame.props⟩⟩
          ⟨input.frame.width * outScale, input.frame.height * outScale, input.frame.format⟩
        dsimp only at hconvert ⊢
        generalize convertColor ff ff.fromRgb _ _ l₁ = converted at hconvert ⊢
        obtain ⟨_ | out, l₂⟩ := converted
        · exact Owes.release hconvert
        · exact Owes.release (Owes.perm hconvert List.perm_middle.symm)

theorem upscale_value (frame : Upscale.Frame π) (l : Ledger Kind) :
    (upscale ff lite frame l).1.map Held.frame = Upscale.upscale ff (Upscale.modelImpl lite) (some frame) := by
  unfold upscale Upscale.upscale
  cases Upscale.validate (some frame) with
  | error status => rfl
  | ok frame =>
    have hinput := toModelIo_value ff frame l
    rw [bind_ok rfl, ← hinput]
    dsimp only
    rcases toModelIo ff frame l with ⟨_ | input, l₁⟩
    · rfl
    · have houtput := runModel_value lite input l₁
      rw [bind_ok rfl, show (Upscale.modelImpl lite).runModel input = lite.runModel input from rfl, ← houtput]
      dsimp only
      rcases runModel lite input l₁ with ⟨_ | output, l₂⟩
      · rfl
      · exact fromModelIo_value ff frame output _ l₂

/-- **Upscaling.** What is left to be released is the frame that is returned. -/
theorem upscale_owes (h : l.Owes owed) (frame : Upscale.Frame π) :
    Returns Held.handles (upscale ff lite frame l) owed := by
  unfold upscale
  cases Upscale.validate (some frame) with
  | error status => exact h
  | ok frame =>
    have hinput := toModelIo_owes ff h frame
    dsimp only
    generalize toModelIo ff frame l = converted at hinput ⊢
    obtain ⟨_ | input, l₁⟩ := converted
    · exact hinput
    · have houtput := runModel_owes lite hinput input
      dsimp only at houtput ⊢
      generalize runModel lite input l₁ = run at houtput ⊢
      obtain ⟨_ | output, l₂⟩ := run
      · exact houtput
      · exact fromModelIo_owes ff houtput frame output _

end UpscalerSpec

/-! ## The writer without its handles -/

section WriterSpec

variable {l : Ledger Kind} {owed : List ℕ} {ff : Writer.Ffmpeg P} {w : HeldWriter σ F P}

/-- a call is the writer's own, and the payload is owed -/
structure Writes (plain : Option (Except Status Unit × FrameWriter σ F P)) (owed : List ℕ)
    (call : Option (Except Status Unit × HeldWriter σ F P × Ledger Kind)) : Prop where
  value : plain = call.map fun x => (x.1, x.2.1.writer)
  owes : ∀ x ∈ call, x.2.2.Owes (x.2.1.payload.toList ++ owed)

/-- a call that returns this -/
theorem writes_some {status : Except Status Unit} (h : l.Owes (w.payload.toList ++ owed)) :
    Writes (some (status, w.writer)) owed (some (status, w, l)) := by
  refine ⟨rfl, ?_⟩
  intro x hx
  obtain rfl := Option.some.inj hx
  exact h

theorem writes_none : Writes (none : Option (Except Status Unit × FrameWriter σ F P)) owed none :=
  ⟨rfl, fun _ hx => (Option.not_mem_none _ hx).elim⟩

/-- a payload is received and taken over, one packet after another -/
theorem drainLoop_writes {k : ℤ} {fuel : ℕ} {info : Writer.EncoderInfo σ F P} (h : l.Owes (w.payload.toList ++ owed)) :
    Writes (FrameWriter.drainLoop ff k fuel info w.writer) owed (HeldWriter.drainLoop ff k fuel info w l) := by
  induction fuel generalizing info w l with
  | zero => exact writes_none
  | succ fuel ih =>
    have hfree := owes_free h
    rw [FrameWriter.drainLoop, HeldWriter.drainLoop]
    dsimp only
    rcases FrameWriter.receivePacket ff _ k info with ⟨(_ | _ | _) | info', w₁⟩
    · exact writes_some (w := ⟨w₁, none⟩) hfree
    · exact writes_some (w := ⟨w₁, none⟩) hfree
    · exact writes_some (w := ⟨w₁, none⟩) hfree
    · have htaken := (hfree.allocate .buffer).release
      dsimp only
      rcases FrameWriter.interleavedWriteFrame ff _ with ⟨_ | _, w₂⟩
      · exact writes_some (w := ⟨w₂, none⟩) htaken
      · exact ih (w := ⟨w₂, none⟩) htaken

theorem encodeFrame_writes (h : l.Owes (w.payload.toList ++ owed)) (k : ℤ) (frame : Option F) :
    Writes (w.writer.encodeFrame ff k frame) owed (w.encodeFrame ff k frame l) := by
  rw [FrameWriter.encodeFrame, HeldWriter.encodeFrame]
  cases w.writer.encoders k with
  | none => exact writes_none
  | some info =>
    dsimp only
    rcases w.writer.sendFrame ff k info frame with ⟨_ | info', w₁⟩
    · exact writes_some (w := ⟨w₁, w.payload⟩) h
    · exact drainLoop_writes (w := ⟨w₁, w.payload⟩) h

/-- **Writing.** `Write` is the writer's own, and destroys the frame. -/
theorem write_writes {frame : Held (Writer.Frame F)} (h : l.Owes (frame.handles ++ (w.payload.toList ++ owed))) :
    Writes (w.writer.write ff frame.frame) owed (w.write ff frame l) := by
  rw [FrameWriter.write, HeldWriter.write]
  by_cases hnone : (w.writer.encoders frame.frame.streamIndex).isNone
  · rw [if_pos hnone, if_pos hnone]
    exact writes_some (owes_destroy h)
  · rw [if_neg hnone, if_neg hnone]
    obtain ⟨hvalue, howes⟩ : Writes (w.writer.encodeFrame ff _ _) _ (w.encodeFrame ff _ _ l) :=
      encodeFrame_writes h.swap frame.frame.streamIndex (some frame.frame.frame)
    rw [hvalue]
    generalize w.encodeFrame ff frame.frame.streamIndex (some frame.frame.frame) l = call at howes ⊢
    cases call with
    | none => exact writes_none
    | some x => exact writes_some (owes_destroy (howes x rfl).swap)

theorem flushEncoders_writes {order : List ℤ} (h : l.Owes (w.payload.toList ++ owed)) :
    Writes (FrameWriter.flushEncoders ff order w.writer) owed (HeldWriter.flushEncoders ff order w l) := by
  induction order generalizing w l with
  | nil => exact writes_some h
  | cons k order ih =>
    obtain ⟨hvalue, howes⟩ : Writes (w.writer.encodeFrame ff _ _) _ (w.encodeFrame ff _ _ l) := encodeFrame_writes h k none
    rw [FrameWriter.flushEncoders, HeldWriter.flushEncoders, hvalue]
    generalize w.encodeFrame ff k none l = call at howes ⊢
    rcases call with _ | ⟨_ | _, w₁, l₁⟩
    · exact writes_none
    · exact writes_some (howes _ rfl)
    · exact ih (howes _ rfl)

/-- **Flushing.** `Flush` is the writer's own. -/
theorem flush_writes (h : l.Owes (w.payload.toList ++ owed)) (order : List ℤ) :
    Writes (w.writer.flush ff order) owed (w.flush ff order l) := by
  obtain ⟨hvalue, howes⟩ : Writes (FrameWriter.flushEncoders ff order w.writer) owed (HeldWriter.flushEncoders ff order w l) :=
    flushEncoders_writes h
  rw [FrameWriter.flush, HeldWriter.flush, hvalue]
  generalize HeldWriter.flushEncoders ff order w l = call at howes ⊢
  rcases call with _ | ⟨_ | _, w₁, l₁⟩
  · exact writes_none
  · exact writes_some (howes _ rfl)
  · dsimp only [Option.map_some]
    rcases w₁.writer.writeTrailer ff with ⟨_ | _, w₂⟩
    · exact writes_some (w := ⟨w₂, w₁.payload⟩) (howes _ rfl)
    · exact writes_some (w := ⟨w₂, w₁.payload⟩) (howes _ rfl)

end WriterSpec

end Viduce.FrameHandles
