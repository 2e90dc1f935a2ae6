/-
Who frees what FFmpeg allocates (`frame_reader.cc`, `frame_writer.cc`). A reader holds a format context, a decoder for each
stream and a packet, a writer a format context with its output, an encoder for each stream and a packet. `Create` makes
them one by one and may fail at any call.

- `openInput_cases`, `getCodecs_cases`, `reader_create_returns`: what a call of the reader leaves unreleased.
- `createFormatCtx_cases`, `createEncoders_owes`, `writer_create_returns`: the same for the writer.
- `create_releases_iff`: everything is released exactly if an input that opens has its stream info, no decoder fails to open
  behind one that opened, an output with a context opens, and no two encoders are made for one stream index.
- `reader_create_cases`, `writer_create_cases`: `Create` succeeds exactly if no call fails.
- `handles_lost`: a handle is lost at each of the four places.

What each call of FFmpeg answers is given; a context or a packet is a handle of a ledger.
-/
import Mathlib.Tactic
import Mathlib.Data.List.AList
import Viduce.Core.Absl
import Viduce.Core.Ledger

namespace Viduce.Handles

open Viduce.Absl Viduce.Ledger

/-! ## FFmpeg -/

inductive Kind where
  | formatContext
  | ioContext
  | codecContext
  | packet
  | avFrame
  /-- what a frame or a packet refers to -/
  | buffer
  | swsContext
  | tensorBuffers
deriving DecidableEq, Repr

/-- a pointer; `none` is null -/
abbrev Pointer : Type := Option ℕ

/-- `avformat_alloc_context`, `avcodec_alloc_context3`, `av_packet_alloc`, `av_frame_alloc`, `sws_getContext`: null when it
fails -/
def alloc (kind : Kind) (succeeds : Bool) (l : Ledger Kind) : Pointer × Ledger Kind :=
  if succeeds then (some l.next, l.allocate kind) else (none, l)

/-- `avformat_free_context`, `avcodec_free_context`, `av_packet_free`, `avio_closep`, `av_frame_free`, `av_packet_unref`,
`sws_freeContext`: nothing for null -/
def free (pointer : Pointer) (l : Ledger Kind) : Ledger Kind := l.releaseAll pointer.toList

/-- `avformat_open_input`: it allocates a context where none is given, and a failure frees the one given -/
def avformatOpenInput (formatCtx : Pointer) (answer : ℤ) (l : Ledger Kind) : Pointer × Ledger Kind :=
  if answer = 0 then
    match formatCtx with
    | some h => (some h, l)
    | none => (some l.next, l.allocate .formatContext)
  else (none, free formatCtx l)

/-- `avformat_close_input`: the pointer is null afterwards -/
def avformatCloseInput (formatCtx : Pointer) (l : Ledger Kind) : Pointer × Ledger Kind := (none, free formatCtx l)

/-- `avformat_alloc_output_context2`: a failure leaves no context -/
def avformatAllocOutputContext2 (answer : ℤ) (l : Ledger Kind) : Pointer × Ledger Kind :=
  if answer < 0 then (none, l) else (some l.next, l.allocate .formatContext)

/-- `avio_open2` -/
def avioOpen2 (answer : ℤ) (l : Ledger Kind) : Pointer × Ledger Kind :=
  if answer < 0 then (none, l) else (some l.next, l.allocate .ioContext)

/-! ## The reader -/

/-- what the calls for one stream of the input answer -/
structure DecoderCalls where
  codecId : ℤ
  avcodecFindDecoder : Bool
  avcodecAllocContext3 : Bool
  avcodecOpen2 : ℤ

/-- what the calls of `FrameReader::Create` answer -/
structure InputCalls where
  avformatAllocContext : Bool
  avformatOpenInput : ℤ
  avformatFindStreamInfo : ℤ
  streams : List DecoderCalls
  avPacketAlloc : Bool

structure FrameReader where
  formatCtx : ℕ
  packet : ℕ
  codecs : List ℕ

section Functions

-- `util::AvErrToStr`, FFmpeg's error texts
variable (avErrToStr : ℤ → String)

/-- `OpenInput` -/
def openInput (url : String) (calls : InputCalls) (l : Ledger Kind) : Except Status ℕ × Ledger Kind :=
  let allocated := alloc .formatContext calls.avformatAllocContext l
  match avformatOpenInput allocated.1 calls.avformatOpenInput allocated.2 with
  | (none, l) =>
    (.error ⟨.invalidArgument,
      s!"Failed to open input video file {url} with error: {avErrToStr calls.avformatOpenInput}"⟩, l)
  | (some formatCtx, l) =>
    if calls.avformatFindStreamInfo ≠ 0 then
      (.error ⟨.internal,
        s!"Failed to find stream info for video file {url} with error: {avErrToStr calls.avformatFindStreamInfo}"⟩, l)
    else (.ok formatCtx, l)

/-- the loop of `GetCodecs`, from stream i on -/
def getCodecs (url : String) :
    ℕ → List DecoderCalls → List ℕ → Ledger Kind → Except Status (List ℕ) × Ledger Kind
  | _, [], codecs, l => (.ok codecs, l)
  | i, stream :: streams, codecs, l =>
    if stream.avcodecFindDecoder = false then
      (.error ⟨.internal,
        s!"Failed to find the codec for the given stream info for url {url} (codecID: {stream.codecId})"⟩, l)
    else
      match alloc .codecContext stream.avcodecAllocContext3 l with
      | (none, l) => (.error ⟨.internal, s!"Failed to allocate codec context for url: {url}, streamID: {i}"⟩, l)
      | (some codecCtx, l) =>
        if stream.avcodecOpen2 < 0 then
          (.error ⟨.internal,
            s!"Failed to open codec for url: {url}, streamID: {i} with error: {avErrToStr stream.avcodecOpen2}"⟩,
            free (some codecCtx) l)
        else getCodecs url (i + 1) streams (codecs ++ [codecCtx]) l

/-- `CleanupFormatCtx` -/
def cleanupFormatCtx (formatCtx : ℕ) (l : Ledger Kind) : Ledger Kind :=
  let closed := avformatCloseInput (some formatCtx) l
  free closed.1 closed.2

/-- `CleanupCodecCtxs` -/
def cleanupCodecCtxs (codecCtxs : List ℕ) (l : Ledger Kind) : Ledger Kind :=
  codecCtxs.foldl (fun l codecCtx => free (some codecCtx) l) l

/-- `FrameReader::Create`. A guard runs on the early returns behind it, the later one first. -/
def FrameReader.create (url : String) (calls : InputCalls) (l : Ledger Kind) : Except Status FrameReader × Ledger Kind :=
  match openInput avErrToStr url calls l with
  | (.error status, l) => (.error status, l)
  | (.ok formatCtx, l) =>
    match getCodecs avErrToStr url 0 calls.streams [] l with
    | (.error status, l) => (.error status, cleanupFormatCtx formatCtx l)
    | (.ok codecs, l) =>
      match alloc .packet calls.avPacketAlloc l with
      | (none, l) =>
        (.error ⟨.internal, s!"Failed to allocate packet for url: {url}"⟩,
          cleanupFormatCtx formatCtx (cleanupCodecCtxs codecs l))
      | (some packet, l) => (.ok ⟨formatCtx, packet, codecs⟩, l)

/-- `~FrameReader` -/
def FrameReader.destroy (r : FrameReader) (l : Ledger Kind) : Ledger Kind :=
  cleanupFormatCtx r.formatCtx (cleanupCodecCtxs r.codecs (free (some r.packet) l))

/-! ## The writer -/

inductive TypeInfo where
  | monostate
  | video
  | audio
deriving DecidableEq, Repr

/-- a stream to be written, and what the calls for it answer -/
structure EncoderCalls where
  streamIndex : ℤ
  typeInfo : TypeInfo
  avcodecFindEncoderByName : Bool
  avcodecAllocContext3 : Bool
  avcodecOpen2 : ℤ
  avformatNewStream : Bool
  avcodecParametersFromContext : ℤ

/-- what the calls of `FrameWriter::Create` answer -/
structure OutputCalls where
  avformatAllocOutputContext2 : ℤ
  avioOpen2 : ℤ
  streams : List EncoderCalls
  avformatWriteHeader : ℤ
  avPacketAlloc : Bool

/-- the format context of the output and its `pb` -/
structure OutputContext where
  formatCtx : ℕ
  pb : ℕ

/-- the index of the output stream, which is the format context's, and the encoder -/
structure EncoderInfo where
  encodingStream : ℕ
  encoderCtx : ℕ

/-- an `unordered_map` -/
abbrev Encoders : Type := AList fun _ : ℤ => EncoderInfo

def Encoders.encoderCtxs (encoders : Encoders) : List ℕ := encoders.entries.map fun entry => entry.2.encoderCtx

/-- the order in which the map is gone through -/
structure MapOrder where
  order : List ℕ → List ℕ
  perm : ∀ ids, (order ids).Perm ids

structure FrameWriter where
  formatCtx : OutputContext
  encoders : Encoders
  packet : ℕ

/-- `CreateFormatCtx` -/
def createFormatCtx (url : String) (calls : OutputCalls) (l : Ledger Kind) :
    Except Status OutputContext × Ledger Kind :=
  match avformatAllocOutputContext2 calls.avformatAllocOutputContext2 l with
  | (none, l) =>
    (.error ⟨.internal,
      s!"Failed to allocate output context for url: {url} with error: {avErrToStr calls.avformatAllocOutputContext2}"⟩, l)
  | (some formatCtx, l) =>
    match avioOpen2 calls.avioOpen2 l with
    | (none, l) => (.error ⟨.internal, s!"Failed to open url: {url} with error: {avErrToStr calls.avioOpen2}"⟩, l)
    | (some pb, l) => (.ok ⟨formatCtx, pb⟩, l)

/-- `codec_name` -/
def codecName : String := "libx265"

/-- `CreateVideoEncoderInfo`, with n streams in the output; the guard frees the encoder on the early returns -/
def createVideoEncoderInfo (n : ℕ) (stream : EncoderCalls) (l : Ledger Kind) : Except Status EncoderInfo × Ledger Kind :=
  if stream.avcodecFindEncoderByName = false then
    (.error ⟨.internal, s!"Failed to find encoder with name: {codecName}"⟩, l)
  else
    match alloc .codecContext stream.avcodecAllocContext3 l with
    | (none, l) => (.error ⟨.internal, s!"Failed to allocate codec context for encoder: {codecName}"⟩, l)
    | (some encoderCtx, l) =>
      if stream.avcodecOpen2 < 0 then
        (.error ⟨.internal, s!"Failed to open encoder {codecName} with error: {avErrToStr stream.avcodecOpen2}"⟩,
          free (some encoderCtx) l)
      else if stream.avformatNewStream = false then
        (.error ⟨.internal, s!"Failed to create new stream for stream index: {stream.streamIndex}"⟩, free (some encoderCtx) l)
      else if stream.avcodecParametersFromContext < 0 then
        let error := avErrToStr stream.avcodecParametersFromContext
        (.error ⟨.internal,
          s!"Failed to copy encoder parameters to stream for stream index: {stream.streamIndex} with error: {error}"⟩,
          free (some encoderCtx) l)
      else (.ok ⟨n, encoderCtx⟩, l)

/-- `CreateAudioEncoderInfo` -/
def createAudioEncoderInfo (stream : EncoderCalls) : Except Status EncoderInfo :=
  if stream.avformatNewStream = false then
    .error ⟨.internal, s!"Failed to create new stream for stream index: {stream.streamIndex}"⟩
  else .error ⟨.unimplemented, "Audio encoding is not implemented yet"⟩

/-- `CreateEncoderInfo` -/
def createEncoderInfo (n : ℕ) (stream : EncoderCalls) (l : Ledger Kind) : Except Status EncoderInfo × Ledger Kind :=
  match stream.typeInfo with
  | .video => createVideoEncoderInfo avErrToStr n stream l
  | .audio => (createAudioEncoderInfo stream, l)
  | .monostate =>
    (.error ⟨.invalidArgument, s!"Unsupported media type for stream index: {stream.streamIndex}"⟩, l)

/-- the loop of `Create`, with n streams in the output; an early return leaves the encoders to their guard -/
def createEncoders : ℕ → List EncoderCalls → Encoders → Ledger Kind → Option Status × Encoders × Ledger Kind
  | _, [], encoders, l => (none, encoders, l)
  | n, stream :: streams, encoders, l =>
    match createEncoderInfo avErrToStr n stream l with
    | (.error status, l) => (some status, encoders, l)
    | (.ok info, l) => createEncoders (n + 1) streams (encoders.insert stream.streamIndex info) l

variable (order : MapOrder)

/-- the loop over the map in `~FrameWriter` and in the guard -/
def freeEncoders (encoders : Encoders) (l : Ledger Kind) : Ledger Kind :=
  (order.order encoders.encoderCtxs).foldl (fun l encoderCtx => free (some encoderCtx) l) l

/-- the end of `~FrameWriter`, and the guard of the format context -/
def closeOutput (ctx : OutputContext) (l : Ledger Kind) : Ledger Kind := free (some ctx.formatCtx) (free (some ctx.pb) l)

/-- `FrameWriter::Create` -/
def FrameWriter.create (url : String) (calls : OutputCalls) (l : Ledger Kind) :
    Except Status FrameWriter × Ledger Kind :=
  match createFormatCtx avErrToStr url calls l with
  | (.error status, l) => (.error status, l)
  | (.ok formatCtx, l) =>
    match createEncoders avErrToStr 0 calls.streams ∅ l with
    | (some status, encoders, l) => (.error status, closeOutput formatCtx (freeEncoders order encoders l))
    | (none, encoders, l) =>
      if calls.avformatWriteHeader < 0 then
        (.error ⟨.internal,
          s!"Failed to write header for url: {url} with error: {avErrToStr calls.avformatWriteHeader}"⟩,
          closeOutput formatCtx (freeEncoders order encoders l))
      else
        match alloc .packet calls.avPacketAlloc l with
        | (none, l) =>
          (.error ⟨.internal, s!"Failed to allocate packet for url: {url}"⟩,
            closeOutput formatCtx (freeEncoders order encoders l))
        | (some packet, l) => (.ok ⟨formatCtx, encoders, packet⟩, l)

/-- `~FrameWriter` -/
def FrameWriter.destroy (w : FrameWriter) (l : Ledger Kind) : Ledger Kind :=
  closeOutput w.formatCtx (freeEncoders order w.encoders (free (some w.packet) l))

/-! ## What a call leaves unreleased -/

variable {l : Ledger Kind} {owed : List ℕ}

theorem owes_alloc (h : l.Owes owed) (kind : Kind) (succeeds : Bool) :
    (alloc kind succeeds l).2.Owes ((alloc kind succeeds l).1.toList ++ owed) := by
  cases succeeds with
  | true => exact h.allocate kind
  | false => exact h

theorem owes_free {pointer : Pointer} (h : l.Owes (pointer.toList ++ owed)) : (free pointer l).Owes owed := h.releaseAll

/-- the input does not open, or it opens without its stream info and its context is lost, or all is well -/
theorem openInput_cases (h : l.Owes owed) (url : String) (calls : InputCalls) :
    (calls.avformatOpenInput ≠ 0 ∧ ∃ status l', openInput avErrToStr url calls l = (.error status, l') ∧ l'.Owes owed) ∨
    (calls.avformatOpenInput = 0 ∧ calls.avformatFindStreamInfo ≠ 0 ∧
      ∃ status lost l', openInput avErrToStr url calls l = (.error status, l') ∧ l'.Owes (lost :: owed)) ∨
    (calls.avformatOpenInput = 0 ∧ calls.avformatFindStreamInfo = 0 ∧
      ∃ formatCtx l', openInput avErrToStr url calls l = (.ok formatCtx, l') ∧ l'.Owes (formatCtx :: owed)) := by
  obtain ⟨pointer, l₁, hcall, halloc⟩ : ∃ pointer l₁,
      alloc .formatContext calls.avformatAllocContext l = (pointer, l₁) ∧ l₁.Owes (pointer.toList ++ owed) :=
    ⟨_, _, rfl, owes_alloc h _ _⟩
  unfold openInput
  simp only [hcall]
  by_cases hopen : calls.avformatOpenInput = 0
  · obtain ⟨formatCtx, l₂, hopened, howes⟩ : ∃ formatCtx l₂,
        avformatOpenInput pointer calls.avformatOpenInput l₁ = (some formatCtx, l₂) ∧ l₂.Owes (formatCtx :: owed) := by
      simp only [avformatOpenInput, hopen, if_true]
      cases pointer with
      | none => exact ⟨_, _, rfl, halloc.allocate .formatContext⟩
      | some formatCtx => exact ⟨_, _, rfl, halloc⟩
    simp only [hopened]
    by_cases hinfo : calls.avformatFindStreamInfo = 0
    · rw [if_neg (not_not.2 hinfo)]
      exact Or.inr (Or.inr ⟨hopen, hinfo, _, _, rfl, howes⟩)
    · rw [if_pos hinfo]
      exact Or.inr (Or.inl ⟨hopen, hinfo, _, _, _, rfl, howes⟩)
  · simp only [avformatOpenInput, if_neg hopen]
    exact Or.inl ⟨hopen, _, _, rfl, owes_free halloc⟩

/-- the decoder of this stream is found, allocated and opened -/
def DecoderCalls.opens (stream : DecoderCalls) : Bool :=
  stream.avcodecFindDecoder && stream.avcodecAllocContext3 && decide (0 ≤ stream.avcodecOpen2)

/-- one stream: its decoder opens and is kept, or nothing of it is left -/
theorem getCodecs_step (h : l.Owes owed) (url : String) (i : ℕ) (stream : DecoderCalls) (streams : List DecoderCalls)
    (codecs : List ℕ) :
    (stream.opens = false ∧
      ∃ status l', getCodecs avErrToStr url i (stream :: streams) codecs l = (.error status, l') ∧ l'.Owes owed) ∨
    (stream.opens = true ∧
      ∃ codecCtx l', getCodecs avErrToStr url i (stream :: streams) codecs l =
        getCodecs avErrToStr url (i + 1) streams (codecs ++ [codecCtx]) l' ∧ l'.Owes (codecCtx :: owed)) := by
  have halloc := owes_alloc h .codecContext stream.avcodecAllocContext3
  rw [getCodecs]
  cases hfind : stream.avcodecFindDecoder with
  | false => exact Or.inl ⟨by simp [DecoderCalls.opens, hfind], _, _, rfl, h⟩
  | true =>
    cases hctx : stream.avcodecAllocContext3 with
    | false => exact Or.inl ⟨by simp [DecoderCalls.opens, hctx], _, _, rfl, h⟩
    | true =>
      rw [hctx] at halloc
      by_cases hopen : stream.avcodecOpen2 < 0
      · exact Or.inl ⟨by simp [DecoderCalls.opens, hopen], _, _, if_pos hopen, owes_free halloc⟩
      · exact Or.inr ⟨by simp [DecoderCalls.opens, hfind, hctx, not_lt.1 hopen], _, _, if_neg hopen, halloc⟩

/-- **The decoders.** They all open and are returned, or those in front of the first that does not are lost. -/
theorem getCodecs_cases {codecs : List ℕ} (h : l.Owes (codecs ++ owed)) (url : String) (i : ℕ)
    (streams : List DecoderCalls) :
    ((∀ stream ∈ streams, stream.opens = true) ∧
      ∃ opened l', getCodecs avErrToStr url i streams codecs l = (.ok (codecs ++ opened), l') ∧
        opened.length = streams.length ∧ l'.Owes (codecs ++ opened ++ owed)) ∨
    ((¬ ∀ stream ∈ streams, stream.opens = true) ∧
      ∃ status opened l', getCodecs avErrToStr url i streams codecs l = (.error status, l') ∧
        opened.length = (streams.takeWhile DecoderCalls.opens).length ∧ l'.Owes (codecs ++ opened ++ owed)) := by
  induction streams generalizing i codecs l with
  | nil =>
    rw [← List.append_nil codecs] at h
    refine Or.inl ⟨fun _ hmem => (List.not_mem_nil hmem).elim, [], l, ?_, rfl, h⟩
    rw [List.append_nil, getCodecs]
  | cons stream streams ih =>
    rw [List.forall_mem_cons, List.takeWhile_cons]
    rcases getCodecs_step avErrToStr h url i stream streams codecs with
      ⟨hopens, status, l', hcall, howes⟩ | ⟨hopens, codecCtx, l', hcall, howes⟩
    · rw [← List.append_nil codecs] at howes
      refine Or.inr ⟨?_, status, [], l', hcall, ?_, howes⟩
      · simp [hopens]
      · simp [hopens]
    · have hkept : l'.Owes (codecs ++ [codecCtx] ++ owed) := by
        refine howes.perm ?_
        rw [List.append_assoc]
        exact List.perm_middle
      rw [hcall, hopens]
      simp only [true_and, if_true, List.length_cons]
      rcases ih hkept (i + 1) with ⟨hall, opened, l₁, hrest, hlength, hleft⟩ |
          ⟨hsome, status, opened, l₁, hrest, hlength, hleft⟩
      · rw [List.append_assoc codecs] at hrest hleft
        exact Or.inl ⟨hall, codecCtx :: opened, l₁, hrest, congrArg _ hlength, hleft⟩
      · rw [List.append_assoc codecs] at hleft
        exact Or.inr ⟨hsome, status, codecCtx :: opened, l₁, hrest, congrArg _ hlength, hleft⟩

theorem owes_cleanupFormatCtx {formatCtx : ℕ} (h : l.Owes (formatCtx :: owed)) :
    (cleanupFormatCtx formatCtx l).Owes owed := h.release

theorem owes_cleanupCodecCtxs {codecCtxs : List ℕ} (h : l.Owes (codecCtxs ++ owed)) :
    (cleanupCodecCtxs codecCtxs l).Owes owed := h.releaseAll

def FrameReader.handles (r : FrameReader) : List ℕ := r.packet :: r.codecs ++ [r.formatCtx]

theorem owes_reader_destroy {r : FrameReader} (h : l.Owes (r.handles ++ owed)) : (r.destroy l).Owes owed := by
  have hgrouped : l.Owes (r.packet :: (r.codecs ++ r.formatCtx :: owed)) := by simpa [FrameReader.handles] using h
  exact owes_cleanupFormatCtx (owes_cleanupCodecCtxs hgrouped.release)

/-- an input that opens has its stream info, and if the first decoder opens, they all do -/
def InputCalls.NothingLost (calls : InputCalls) : Prop :=
  calls.avformatOpenInput = 0 → calls.avformatFindStreamInfo = 0 ∧
    ((∃ stream ∈ calls.streams.head?, stream.opens = true) → ∀ stream ∈ calls.streams, stream.opens = true)

/-- **The reader.** -/
theorem reader_create_returns (h : l.Owes owed) (url : String) (calls : InputCalls) :
    ∃ lost, Returns FrameReader.handles (FrameReader.create avErrToStr url calls l) (lost ++ owed) ∧
      (lost = [] ↔ calls.NothingLost) := by
  unfold FrameReader.create InputCalls.NothingLost
  rcases openInput_cases avErrToStr h url calls with
    ⟨hopen, status, l₁, hcall, howes⟩ | ⟨hopen, hinfo, status, lost, l₁, hcall, howes⟩ |
      ⟨hopen, hinfo, formatCtx, l₁, hcall, howes⟩
  · rw [hcall]
    exact ⟨[], howes, by simp [hopen]⟩
  · rw [hcall]
    exact ⟨[lost], howes, by simp [hopen, hinfo]⟩
  · rw [hcall]
    dsimp only
    have hstart : l₁.Owes ([] ++ formatCtx :: owed) := howes
    rcases getCodecs_cases avErrToStr hstart url 0 calls.streams with
      ⟨hall, codecs, l₂, hcodecs, -, hkept⟩ | ⟨hsome, status, lost, l₂, hcodecs, hlength, hleft⟩
    · rw [hcodecs]
      refine ⟨[], ?_, iff_of_true rfl fun _ => ⟨hinfo, fun _ => hall⟩⟩
      have halloc := owes_alloc hkept .packet calls.avPacketAlloc
      cases hpacket : calls.avPacketAlloc with
      | false => exact owes_cleanupFormatCtx (owes_cleanupCodecCtxs hkept)
      | true =>
        rw [hpacket] at halloc
        simpa [Returns, alloc, FrameReader.handles] using halloc
    · rw [hcodecs]
      refine ⟨lost, owes_cleanupFormatCtx (hleft.perm List.perm_middle.symm), ?_⟩
      rw [← List.length_eq_zero_iff, hlength, List.length_eq_zero_iff]
      cases hstreams : calls.streams with
      | nil => simp [hstreams] at hsome
      | cons stream streams =>
        rw [hstreams] at hsome
        cases hopens : stream.opens with
        | false => simp [hinfo, hopens]
        | true =>
          have hnot : ¬ ∀ s ∈ streams, s.opens = true := by simpa [hopens] using hsome
          simp [hopen, hopens, hnot]

/-! ## What a call of the writer leaves unreleased -/

/-- there is no context, or it opens without its output and is lost, or all is well -/
theorem createFormatCtx_cases (h : l.Owes owed) (url : String) (calls : OutputCalls) :
    (calls.avformatAllocOutputContext2 < 0 ∧
      ∃ status l', createFormatCtx avErrToStr url calls l = (.error status, l') ∧ l'.Owes owed) ∨
    (0 ≤ calls.avformatAllocOutputContext2 ∧ calls.avioOpen2 < 0 ∧
      ∃ status lost l', createFormatCtx avErrToStr url calls l = (.error status, l') ∧ l'.Owes (lost :: owed)) ∨
    (0 ≤ calls.avformatAllocOutputContext2 ∧ 0 ≤ calls.avioOpen2 ∧
      ∃ ctx l', createFormatCtx avErrToStr url calls l = (.ok ctx, l') ∧ l'.Owes (ctx.pb :: ctx.formatCtx :: owed)) := by
  unfold createFormatCtx
  rcases lt_or_ge calls.avformatAllocOutputContext2 0 with halloc | halloc
  · simp only [avformatAllocOutputContext2, if_pos halloc]
    exact Or.inl ⟨halloc, _, _, rfl, h⟩
  · have howes := h.allocate .formatContext
    simp only [avformatAllocOutputContext2, if_neg (not_lt.2 halloc)]
    rcases lt_or_ge calls.avioOpen2 0 with hopen | hopen
    · simp only [avioOpen2, if_pos hopen]
      exact Or.inr (Or.inl ⟨halloc, hopen, _, _, _, rfl, howes⟩)
    · simp only [avioOpen2, if_neg (not_lt.2 hopen)]
      exact Or.inr (Or.inr ⟨halloc, hopen, _, _, rfl, howes.allocate .ioContext⟩)

/-- an encoder is made for this stream -/
def EncoderCalls.makes (stream : EncoderCalls) : Bool :=
  decide (stream.typeInfo = .video) && stream.avcodecFindEncoderByName && stream.avcodecAllocContext3 &&
    decide (0 ≤ stream.avcodecOpen2) && stream.avformatNewStream && decide (0 ≤ stream.avcodecParametersFromContext)

/-- a video stream: its encoder is made, or nothing of it is left -/
theorem createVideoEncoderInfo_cases (h : l.Owes owed) (n : ℕ) {stream : EncoderCalls} (htype : stream.typeInfo = .video) :
    (stream.makes = false ∧
      ∃ status l', createVideoEncoderInfo avErrToStr n stream l = (.error status, l') ∧ l'.Owes owed) ∨
    (stream.makes = true ∧
      ∃ info l', createVideoEncoderInfo avErrToStr n stream l = (.ok info, l') ∧ l'.Owes (info.encoderCtx :: owed)) := by
  have halloc := owes_alloc h .codecContext stream.avcodecAllocContext3
  rw [createVideoEncoderInfo]
  cases hfind : stream.avcodecFindEncoderByName with
  | false => exact Or.inl ⟨by simp [EncoderCalls.makes, hfind], _, _, rfl, h⟩
  | true =>
    cases hctx : stream.avcodecAllocContext3 with
    | false => exact Or.inl ⟨by simp [EncoderCalls.makes, hctx], _, _, rfl, h⟩
    | true =>
      rw [hctx] at halloc
      have hfreed := owes_free halloc
      simp only [alloc, Bool.true_eq_false, if_false, if_true] at halloc hfreed ⊢
      rcases lt_or_ge stream.avcodecOpen2 0 with hopen | hopen
      · rw [if_pos hopen]
        exact Or.inl ⟨by simp [EncoderCalls.makes, hopen], _, _, rfl, hfreed⟩
      · rw [if_neg (not_lt.2 hopen)]
        cases hnew : stream.avformatNewStream with
        | false => exact Or.inl ⟨by simp [EncoderCalls.makes, hnew], _, _, rfl, hfreed⟩
        | true =>
          rw [if_neg (by decide)]
          rcases lt_or_ge stream.avcodecParametersFromContext 0 with hparam | hparam
          · rw [if_pos hparam]
            exact Or.inl ⟨by simp [EncoderCalls.makes, hparam], _, _, rfl, hfreed⟩
          · rw [if_neg (not_lt.2 hparam)]
            refine Or.inr ⟨?_, _, _, rfl, halloc⟩
            simp [EncoderCalls.makes, htype, hfind, hctx, hopen, hnew, hparam]

theorem createEncoderInfo_cases (h : l.Owes owed) (n : ℕ) (stream : EncoderCalls) :
    (stream.makes = false ∧
      ∃ status l', createEncoderInfo avErrToStr n stream l = (.error status, l') ∧ l'.Owes owed) ∨
    (stream.makes = true ∧
      ∃ info l', createEncoderInfo avErrToStr n stream l = (.ok info, l') ∧ l'.Owes (info.encoderCtx :: owed)) := by
  cases htype : stream.typeInfo with
  | video =>
    simp only [createEncoderInfo, htype]
    exact createVideoEncoderInfo_cases avErrToStr h n htype
  | audio =>
    refine Or.inl ⟨by simp [EncoderCalls.makes, htype], ?_⟩
    simp only [createEncoderInfo, htype, createAudioEncoderInfo]
    split
    · exact ⟨_, _, rfl, h⟩
    · exact ⟨_, _, rfl, h⟩
  | monostate =>
    refine Or.inl ⟨by simp [EncoderCalls.makes, htype], ?_⟩
    simp only [createEncoderInfo, htype]
    exact ⟨_, _, rfl, h⟩

/-- an encoder put into the map where one stands takes its place, and that one is lost -/
theorem insert_encoderCtxs (encoders : Encoders) (k : ℤ) (info : EncoderInfo) :
    ∃ lost, (info.encoderCtx :: encoders.encoderCtxs).Perm (Encoders.encoderCtxs (encoders.insert k info) ++ lost) ∧
      (lost = [] ↔ k ∉ encoders.keys) := by
  by_cases hk : k ∈ encoders.keys
  · obtain ⟨old, front, back, -, hentries, hkerase⟩ := List.exists_of_kerase hk
    refine ⟨[old.encoderCtx], ?_, by simp [hk]⟩
    rw [Encoders.encoderCtxs, Encoders.encoderCtxs, AList.entries_insert, hkerase, hentries, List.map_cons,
      List.map_append, List.map_append, List.map_cons, List.cons_append]
    refine List.Perm.cons _ ?_
    exact List.perm_middle.trans (List.perm_append_singleton _ _).symm
  · refine ⟨[], ?_, by simp [hk]⟩
    rw [List.append_nil, Encoders.encoderCtxs, Encoders.encoderCtxs,
      AList.entries_insert_of_notMem (fun h => hk (AList.mem_keys.1 h))]
    exact List.Perm.refl _

/-- the streams an encoder is made for: those in front of the first for which none is -/
def made (streams : List EncoderCalls) : List ℤ :=
  (streams.takeWhile EncoderCalls.makes).map EncoderCalls.streamIndex

/-- **The encoders.** Each one made is in the map or lost, and none is lost if they have different indices. -/
theorem createEncoders_owes {encoders : Encoders} (h : l.Owes (encoders.encoderCtxs ++ owed)) (n : ℕ)
    (streams : List EncoderCalls) :
    ∃ status encoders' l' lost, createEncoders avErrToStr n streams encoders l = (status, encoders', l') ∧
      l'.Owes (encoders'.encoderCtxs ++ (lost ++ owed)) ∧ (lost = [] ↔ (encoders.keys ++ made streams).Nodup) ∧
      (status = none ↔ ∀ stream ∈ streams, stream.makes = true) := by
  induction streams generalizing n encoders l owed with
  | nil => exact ⟨_, _, _, [], rfl, h, by simp [made, encoders.keys_nodup], by simp⟩
  | cons stream streams ih =>
    rw [createEncoders]
    rcases createEncoderInfo_cases avErrToStr h n stream with
      ⟨hmakes, status, l₁, hcall, howes⟩ | ⟨hmakes, info, l₁, hcall, howes⟩
    · rw [hcall]
      exact ⟨_, _, _, [], rfl, howes, by simp [made, hmakes, encoders.keys_nodup], by simp [hmakes]⟩
    · obtain ⟨replaced, hperm, hreplaced⟩ := insert_encoderCtxs encoders stream.streamIndex info
      have hkept : l₁.Owes (Encoders.encoderCtxs (encoders.insert stream.streamIndex info) ++ (replaced ++ owed)) := by
        refine howes.perm ?_
        rw [← List.append_assoc]
        exact (hperm.append_right owed).symm
      obtain ⟨status, encoders', l', lost, hrest, hleft, hlost, hstatus⟩ := ih hkept (n + 1)
      have hmade : made (stream :: streams) = stream.streamIndex :: made streams := by simp [made, hmakes]
      rw [hcall]
      refine ⟨status, encoders', l', lost ++ replaced, hrest, by rwa [List.append_assoc], ?_, by simp [hstatus, hmakes]⟩
      rw [List.append_eq_nil_iff, hlost, hreplaced, hmade, List.perm_middle.nodup_iff, AList.keys_insert]
      constructor
      · intro hnew
        rw [← List.erase_of_not_mem hnew.2]
        exact hnew.1
      · intro hnew
        have hk : stream.streamIndex ∉ encoders.keys := fun hmem => (List.nodup_cons.1 hnew).1 (List.mem_append_left _ hmem)
        rw [List.erase_of_not_mem hk]
        exact ⟨hnew, hk⟩

theorem owes_closeOutput {ctx : OutputContext} (h : l.Owes (ctx.pb :: ctx.formatCtx :: owed)) :
    (closeOutput ctx l).Owes owed := h.release.release

theorem owes_freeEncoders {encoders : Encoders} (h : l.Owes (encoders.encoderCtxs ++ owed)) :
    (freeEncoders order encoders l).Owes owed := Owes.releaseAll (h.perm ((order.perm _).append_right owed))

def FrameWriter.handles (w : FrameWriter) : List ℕ :=
  w.packet :: w.encoders.encoderCtxs ++ [w.formatCtx.pb, w.formatCtx.formatCtx]

theorem owes_writer_destroy {w : FrameWriter} (h : l.Owes (w.handles ++ owed)) : (w.destroy order l).Owes owed := by
  have hgrouped : l.Owes (w.packet :: (w.encoders.encoderCtxs ++ w.formatCtx.pb :: w.formatCtx.formatCtx :: owed)) := by
    simpa [FrameWriter.handles] using h
  exact owes_closeOutput (owes_freeEncoders order hgrouped.release)

/-- an output with a context opens, and no two encoders are made for one stream index -/
def OutputCalls.NothingLost (calls : OutputCalls) : Prop :=
  0 ≤ calls.avformatAllocOutputContext2 → 0 ≤ calls.avioOpen2 ∧ (made calls.streams).Nodup

/-- **The writer.** -/
theorem writer_create_returns (h : l.Owes owed) (url : String) (calls : OutputCalls) :
    ∃ lost, Returns FrameWriter.handles (FrameWriter.create avErrToStr order url calls l) (lost ++ owed) ∧
      (lost = [] ↔ calls.NothingLost) := by
  unfold FrameWriter.create OutputCalls.NothingLost
  rcases createFormatCtx_cases avErrToStr h url calls with
    ⟨halloc, status, l₁, hcall, howes⟩ | ⟨halloc, hopen, status, lost, l₁, hcall, howes⟩ |
      ⟨halloc, hopen, formatCtx, l₁, hcall, howes⟩
  · rw [hcall]
    exact ⟨[], howes, by simp [halloc]⟩
  · rw [hcall]
    exact ⟨[lost], howes, by simp [halloc, hopen]⟩
  · rw [hcall]
    have hstart : l₁.Owes (Encoders.encoderCtxs ∅ ++ formatCtx.pb :: formatCtx.formatCtx :: owed) := howes
    obtain ⟨status, encoders, l₂, lost, hencoders, hkept, hlost, -⟩ := createEncoders_owes avErrToStr hstart 0 calls.streams
    have hcond : lost = [] ↔ (0 ≤ calls.avformatAllocOutputContext2 → 0 ≤ calls.avioOpen2 ∧ (made calls.streams).Nodup) := by
      rw [hlost]
      simp [halloc, hopen]
    have hgrouped : ∀ {l' : Ledger Kind}, l'.Owes (lost ++ formatCtx.pb :: formatCtx.formatCtx :: owed) →
        (closeOutput formatCtx l').Owes (lost ++ owed) := by
      intro l' hl'
      refine owes_closeOutput (hl'.perm ?_)
      exact (List.perm_append_comm_assoc [_, _] lost owed)
    have hclosed := hgrouped (owes_freeEncoders order hkept)
    dsimp only
    rw [hencoders]
    refine ⟨lost, ?_, hcond⟩
    cases status with
    | some status => exact hclosed
    | none =>
      dsimp only
      split_ifs with hheader
      · exact hclosed
      · have hpacket := owes_alloc hkept .packet calls.avPacketAlloc
        cases hfails : calls.avPacketAlloc with
        | false => exact hclosed
        | true =>
          rw [hfails] at hpacket
          refine Owes.perm hpacket ?_
          simp only [FrameWriter.handles, List.cons_append, List.append_assoc]
          refine List.Perm.cons _ (List.Perm.append_left _ ?_)
          exact (List.perm_append_comm_assoc [_, _] lost owed)

/-! ## Exactly when everything is released -/

/-- **Failed opens.** A reader or a writer whose `Create` fails has released every handle once, and one that is made
releases every handle once when destroyed, exactly if no handle is lost at one of the four places. -/
theorem create_releases_iff (url : String) :
    (∀ calls : InputCalls,
      ReleasesAll FrameReader.destroy (FrameReader.create avErrToStr url calls .empty) ↔ calls.NothingLost) ∧
    (∀ calls : OutputCalls,
      ReleasesAll (FrameWriter.destroy order) (FrameWriter.create avErrToStr order url calls .empty) ↔
        calls.NothingLost) := by
  constructor
  · intro calls
    obtain ⟨lost, hreturns, hlost⟩ := reader_create_returns avErrToStr owes_empty url calls
    rw [List.append_nil] at hreturns
    rw [hreturns.releasesAll_iff owes_reader_destroy, hlost]
  · intro calls
    obtain ⟨lost, hreturns, hlost⟩ := writer_create_returns avErrToStr order owes_empty url calls
    rw [List.append_nil] at hreturns
    rw [hreturns.releasesAll_iff (owes_writer_destroy order), hlost]

/-! ## When `Create` succeeds -/

/-- no call of FFmpeg fails -/
def InputCalls.Succeeds (calls : InputCalls) : Prop :=
  calls.avformatOpenInput = 0 ∧ calls.avformatFindStreamInfo = 0 ∧ (∀ stream ∈ calls.streams, stream.opens = true) ∧
    calls.avPacketAlloc = true

/-- no failure goes unnoticed, and a reader that is made has a decoder for each stream -/
theorem reader_create_cases (h : l.Owes owed) (url : String) (calls : InputCalls) :
    (calls.Succeeds ∧ ∃ r l', FrameReader.create avErrToStr url calls l = (.ok r, l') ∧
      r.codecs.length = calls.streams.length) ∨
    (¬ calls.Succeeds ∧ ∃ status l', FrameReader.create avErrToStr url calls l = (.error status, l')) := by
  unfold FrameReader.create InputCalls.Succeeds
  rcases openInput_cases avErrToStr h url calls with
    ⟨hopen, status, l₁, hcall, -⟩ | ⟨hopen, hinfo, status, lost, l₁, hcall, -⟩ | ⟨hopen, hinfo, formatCtx, l₁, hcall, howes⟩
  · rw [hcall]
    exact Or.inr ⟨fun h => hopen h.1, _, _, rfl⟩
  · rw [hcall]
    exact Or.inr ⟨fun h => hinfo h.2.1, _, _, rfl⟩
  · rw [hcall]
    dsimp only
    have hstart : l₁.Owes ([] ++ formatCtx :: owed) := howes
    rcases getCodecs_cases avErrToStr hstart url 0 calls.streams with
      ⟨hall, codecs, l₂, hcodecs, hlength, -⟩ | ⟨hsome, status, lost, l₂, hcodecs, -, -⟩
    · rw [hcodecs]
      cases hpacket : calls.avPacketAlloc with
      | false => exact Or.inr ⟨fun h => Bool.false_ne_true h.2.2.2, _, _, rfl⟩
      | true => exact Or.inl ⟨⟨hopen, hinfo, hall, rfl⟩, _, _, rfl, hlength⟩
    · rw [hcodecs]
      exact Or.inr ⟨fun h => hsome h.2.2.1, _, _, rfl⟩

def OutputCalls.Succeeds (calls : OutputCalls) : Prop :=
  0 ≤ calls.avformatAllocOutputContext2 ∧ 0 ≤ calls.avioOpen2 ∧ (∀ stream ∈ calls.streams, stream.makes = true) ∧
    0 ≤ calls.avformatWriteHeader ∧ calls.avPacketAlloc = true

/-- no failure goes unnoticed -/
theorem writer_create_cases (h : l.Owes owed) (url : String) (calls : OutputCalls) :
    (calls.Succeeds ∧ ∃ w l', FrameWriter.create avErrToStr order url calls l = (.ok w, l')) ∨
    (¬ calls.Succeeds ∧ ∃ status l', FrameWriter.create avErrToStr order url calls l = (.error status, l')) := by
  unfold FrameWriter.create OutputCalls.Succeeds
  rcases createFormatCtx_cases avErrToStr h url calls with
    ⟨halloc, status, l₁, hcall, -⟩ | ⟨halloc, hopen, status, lost, l₁, hcall, -⟩ |
      ⟨halloc, hopen, formatCtx, l₁, hcall, howes⟩
  · rw [hcall]
    exact Or.inr ⟨fun h => not_lt.2 h.1 halloc, _, _, rfl⟩
  · rw [hcall]
    exact Or.inr ⟨fun h => not_lt.2 h.2.1 hopen, _, _, rfl⟩
  · rw [hcall]
    have hstart : l₁.Owes (Encoders.encoderCtxs ∅ ++ formatCtx.pb :: formatCtx.formatCtx :: owed) := howes
    obtain ⟨status, encoders, l₂, lost, hencoders, -, -, hstatus⟩ := createEncoders_owes avErrToStr hstart 0 calls.streams
    dsimp only
    rw [hencoders]
    cases status with
    | some status => exact Or.inr ⟨fun h => Option.some_ne_none _ (hstatus.2 h.2.2.1), _, _, rfl⟩
    | none =>
      dsimp only
      split_ifs with hheader
      · exact Or.inr ⟨fun h => not_lt.2 h.2.2.2.1 hheader, _, _, rfl⟩
      · cases hpacket : calls.avPacketAlloc with
        | false => exact Or.inr ⟨fun h => Bool.false_ne_true h.2.2.2.2, _, _, rfl⟩
        | true => exact Or.inl ⟨⟨halloc, hopen, hstatus.1 rfl, not_lt.1 hheader, rfl⟩, _, _, rfl⟩

end Functions

/-- **Four handles lost.** An input without stream info, a second decoder that is not found, an output that does not
open, and a stream index given twice. -/
theorem handles_lost :
    ¬ ReleasesAll FrameReader.destroy
      (FrameReader.create (fun _ => "Invalid data") "input.mp4" ⟨true, 0, -1, [], true⟩ .empty) ∧
    ¬ ReleasesAll FrameReader.destroy
      (FrameReader.create (fun _ => "Invalid data") "input.mp4"
        ⟨true, 0, 0, [⟨27, true, true, 0⟩, ⟨0, false, true, 0⟩], true⟩ .empty) ∧
    ¬ ReleasesAll (FrameWriter.destroy ⟨id, List.Perm.refl⟩)
      (FrameWriter.create (fun _ => "Permission denied") ⟨id, List.Perm.refl⟩ "output.mp4" ⟨0, -13, [], 0, true⟩ .empty) ∧
    ¬ ReleasesAll (FrameWriter.destroy ⟨id, List.Perm.refl⟩)
      (FrameWriter.create (fun _ => "Permission denied") ⟨id, List.Perm.refl⟩ "output.mp4"
        ⟨0, 0, [⟨0, .video, true, true, 0, true, 0⟩, ⟨0, .video, true, true, 0, true, 0⟩], 0, true⟩ .empty) := by
  decide

end Viduce.Handles
