/-
`EnhanceVideo` (`engine_api.cc`): an input file is read, upscaled and written, and what FFmpeg and LiteRT allocated is freed on
the way out.

- `enhance_ok`: when it returns OK, every stream is a video, and each output stream was handed the packets its encoder makes of
  what the upscaler made of the frames that were read for it, in order, each once; then the trailer.
- `enhance_complete`: when no call fails and the decoders keep up, it returns OK, no frame of the input is missing, and
  everything is freed.
- `enhance_returns`: it ends, whatever fails, and it returns a status if the model has room for the frames.
- `enhance_releases_iff`: wherever it returns, frames, contexts, packets and tensor buffers are all freed exactly if no handle
  was lost in front of the loop; the encoders are never lost.

What FFmpeg, LiteRT and the environment answer is given.
-/
import Mathlib.Tactic
import Viduce.Engine.Handles
import Viduce.Engine.Pipeline

namespace Viduce.Enhance

open Viduce.Absl Viduce.FrameHandles Viduce.Ledger Viduce.SendReceive
open Viduce.Engine (FrameReader ReadsAll)
open Viduce.Writer (FrameWriter WritesOk muxed muxedTo stampOf)
open Viduce.Upscale (AVFrame)

variable {σ P σ' P' π : Type}

/-! ## The input -/

/-- a stream of the input file: what FFmpeg says of it, what the calls for its decoder answer, and the decoder -/
structure InputStream (σ P π : Type) where
  codecType : Engine.AVMediaType
  nbFrames : ℤ
  timeBase : AVRational
  duration : ℤ
  width : ℕ
  height : ℕ
  format : Upscale.AVPixelFormat
  calls : Handles.DecoderCalls
  decoder : Codec σ P (AVFrame π)

structure InputFile (σ P π : Type) where
  avformatAllocContext : Bool
  avformatOpenInput : ℤ
  avformatFindStreamInfo : ℤ
  avPacketAlloc : Bool
  streams : List (InputStream σ P π)
  /-- what `av_read_frame` answers before the end of the file -/
  reads : List (Except Refusal (Engine.AVPacket P))

def InputFile.calls (file : InputFile σ P π) : Handles.InputCalls :=
  ⟨file.avformatAllocContext, file.avformatOpenInput, file.avformatFindStreamInfo, file.streams.map InputStream.calls,
    file.avPacketAlloc⟩

def InputStream.avStream (s : InputStream σ P π) : Engine.AVStream σ P (AVFrame π) := ⟨s.codecType, s.decoder⟩

/-- the reader that `FrameReader::Create` makes -/
def InputFile.reader (file : InputFile σ P π) : FrameReader σ P (AVFrame π) :=
  ⟨⟨file.streams.map InputStream.avStream, file.reads⟩, file.streams.map fun s => Context.start s.decoder⟩

/-- `CreateMediaInfo` for stream i -/
def streamInfo (i : ℕ) (s : InputStream σ P π) : StreamInfo where
  streamIndex := i
  numFrames := s.nbFrames
  codecId := s.calls.codecId
  timeBase := s.timeBase
  duration := s.duration
  typeInfo :=
    match s.codecType with
    | .video => .video ⟨s.width, s.height, s.format⟩
    | .audio => .audio
    | .unknown => .monostate

/-- `CreateMediaInfo` -/
def createMediaInfo (streams : List (InputStream σ P π)) : List StreamInfo := streams.mapIdx streamInfo

/-- a stream as it is to be written -/
def StreamInfo.upscaled (factor : ℕ) (info : StreamInfo) : StreamInfo :=
  match info.typeInfo with
  | .video v => { info with typeInfo := .video { v with width := v.width * factor, height := v.height * factor } }
  | _ => info

/-! ## The output -/

/-- what the calls for one encoder answer -/
structure EncoderAnswers where
  avcodecFindEncoderByName : Bool
  avcodecAllocContext3 : Bool
  avcodecOpen2 : ℤ
  avformatNewStream : Bool
  avcodecParametersFromContext : ℤ

/-- what `CreateVideoEncoderInfo` sets in the context it opens -/
structure EncoderParams where
  height : ℕ
  width : ℕ
  pixFmt : Upscale.AVPixelFormat
  timeBase : AVRational
  framerate : AVRational
deriving DecidableEq, Repr

/-- what FFmpeg answers for one output -/
structure OutputFile (σ' P' π : Type) where
  avformatAllocOutputContext2 : ℤ
  avioOpen2 : ℤ
  answers : StreamInfo → EncoderAnswers
  avReduce : ℤ → ℤ → AVRational
  /-- the encoder that is opened with these parameters -/
  encoder : EncoderParams → Codec σ' (AVFrame π) P'
  avformatWriteHeader : ℤ
  /-- the timebase of an output stream behind the header -/
  headerTimeBase : ℕ → ℚ
  avPacketAlloc : Bool

def TypeInfo.kind : TypeInfo → Handles.TypeInfo
  | .monostate => .monostate
  | .video _ => .video
  | .audio => .audio

namespace OutputFile

variable (out : OutputFile σ' P' π)

def encoderCalls (info : StreamInfo) : Handles.EncoderCalls :=
  let answers := out.answers info
  ⟨info.streamIndex, info.typeInfo.kind, answers.avcodecFindEncoderByName, answers.avcodecAllocContext3,
    answers.avcodecOpen2, answers.avformatNewStream, answers.avcodecParametersFromContext⟩

def calls (streams : List StreamInfo) : Handles.OutputCalls :=
  ⟨out.avformatAllocOutputContext2, out.avioOpen2, streams.map out.encoderCalls, out.avformatWriteHeader, out.avPacketAlloc⟩

/-- the parameters of `CreateVideoEncoderInfo` -/
def encoderParams (info : StreamInfo) (v : VideoInfo) : EncoderParams :=
  ⟨v.height, v.width, v.pixFmt, info.timeBase,
    out.avReduce (info.numFrames * info.timeBase.den) (info.duration * info.timeBase.num)⟩

/-- a video stream of the writer, with its encoder -/
def writerStream (info : StreamInfo) : Option (Writer.StreamInfo σ' (AVFrame π) P') :=
  match info.typeInfo with
  | .video v => some ⟨info.streamIndex, info.timeBase.num / info.timeBase.den, out.encoder (out.encoderParams info v)⟩
  | _ => none

/-- the writer that `FrameWriter::Create` makes -/
def writer (streams : List StreamInfo) : FrameWriter σ' (AVFrame π) P' :=
  FrameWriter.create out.headerTimeBase (streams.filterMap out.writerStream)

end OutputFile

/-! ## The function -/

/-- everything outside -/
structure World (σ P σ' P' π : Type) where
  /-- `getenv("VIDUCE_UPSCALER_PATH")` -/
  upscalerPath : Option String
  /-- `ModelImpl::Create`, and the model on the n-th frame -/
  createModel : String → Except Status (ℕ → Upscale.LiteRt)
  input : String → InputFile σ P π
  output : String → OutputFile σ' P' π
  avErrToStr : ℤ → String
  /-- in which iterations of the n-th read no frame can be allocated -/
  frameFails : ℕ → ℕ → Bool
  conversion : ℕ → Upscale.Ffmpeg π
  muxer : Writer.Ffmpeg P'
  /-- the order in which `~FrameWriter` goes through its map -/
  mapOrder : Handles.MapOrder
  /-- the order in which `Flush` does -/
  flushOrder : List ℤ → List ℤ
  flushOrder_perm : ∀ ks, (flushOrder ks).Perm ks

/-- the error code behind a refusal: `AVERROR(EAGAIN)`, `AVERROR_EOF` or another one -/
def errorCode : Refusal → ℤ
  | .eagain => -11
  | .eof => -541478725
  | .other code => code

/-- `std::filesystem::path(output_dir) / "output.mp4"` -/
def outputUrl (outputDir : String) : String :=
  if outputDir.isEmpty ∨ outputDir.endsWith "/" then outputDir ++ "output.mp4" else outputDir ++ "/output.mp4"

structure Outcome (P' : Type) where
  exit : Exit
  /-- the calls of the muxer -/
  log : List (Writer.Event P')
  ledger : Ledger Handles.Kind

/-- `~FrameReader`, whose packet lets go of its payload -/
def destroyReader (frameReader : Handles.FrameReader) (r : HeldReader σ P (AVFrame π)) (l : Ledger Handles.Kind) :
    Ledger Handles.Kind := frameReader.destroy (Handles.free r.payload l)

/-- `~FrameWriter`, whose packet lets go of its payload -/
def destroyWriter (mapOrder : Handles.MapOrder) (frameWriter : Handles.FrameWriter) (w : HeldWriter σ' (AVFrame π) P')
    (l : Ledger Handles.Kind) : Ledger Handles.Kind := frameWriter.destroy mapOrder (Handles.free w.payload l)

/-- behind the loop: a return destroys the writer and then the reader -/
def leave (mapOrder : Handles.MapOrder) (frameReader : Handles.FrameReader) (frameWriter : Handles.FrameWriter) :
    Exit × LoopState σ P σ' P' π → Outcome P'
  | (.returned status, ⟨r, w, l⟩) =>
    ⟨.returned status, w.writer.log, destroyReader frameReader r (destroyWriter mapOrder frameWriter w l)⟩
  | (.undefined, ⟨_, w, l⟩) => ⟨.undefined, w.writer.log, l⟩

namespace World

variable (world : World σ P σ' P' π) (inputPath outputDir : String)

/-- the streams as they are to be written -/
def outputStreams : List StreamInfo :=
  (createMediaInfo (world.input inputPath).streams).map (StreamInfo.upscaled Upscale.kUpscale)

/-- the calls of the loop -/
def loopCalls (model : ℕ → Upscale.LiteRt) : LoopCalls P' π where
  avErrToStr e := world.avErrToStr (errorCode e)
  frameFails := world.frameFails
  conversion := world.conversion
  model := model
  muxer := world.muxer
  order := world.flushOrder ((world.outputStreams inputPath).filterMap (world.output (outputUrl outputDir)).writerStream
    |>.map Writer.StreamInfo.streamIndex)

/-- the loop starts with the reader and the writer, whose packets are blank -/
def start (l : Ledger Handles.Kind) : LoopState σ P σ' P' π where
  reader := ⟨(world.input inputPath).reader, none⟩
  writer := ⟨(world.output (outputUrl outputDir)).writer (world.outputStreams inputPath), none⟩
  ledger := l

/-- `EnhanceVideoInternal`; the reader and the writer are destroyed on every return behind them -/
def enhanceVideoInternal (fuel : ℕ) (l : Ledger Handles.Kind) : Option (Outcome P') :=
  match world.upscalerPath with
  | none =>
    some ⟨.returned (.error ⟨.failedPrecondition, "VIDUCE_UPSCALER_PATH environment variable is not set"⟩), [], l⟩
  | some modelPath =>
    match world.createModel modelPath with
    | .error status => some ⟨.returned (.error status), [], l⟩
    | .ok model =>
      let file := world.input inputPath
      match Handles.FrameReader.create world.avErrToStr inputPath file.calls l with
      | (.error status, l) => some ⟨.returned (.error status), [], l⟩
      | (.ok frameReader, l) =>
        let url := outputUrl outputDir
        let out := world.output url
        match Handles.FrameWriter.create world.avErrToStr world.mapOrder url (out.calls (world.outputStreams inputPath)) l with
        | (.error status, l) => some ⟨.returned (.error status), [], frameReader.destroy l⟩
        | (.ok frameWriter, l) =>
          (enhanceLoop (world.loopCalls inputPath outputDir model) (createMediaInfo file.streams) fuel 0
            (world.start inputPath outputDir l)).map (leave world.mapOrder frameReader frameWriter)

/-- no handle is lost: an input that opens has its stream info, if its first decoder opens they all do, and the output, if
it comes to that and has a context, opens -/
def NothingLost : Prop :=
  (∃ modelPath model, world.upscalerPath = some modelPath ∧ world.createModel modelPath = .ok model) →
    (world.input inputPath).calls.NothingLost ∧
      ((world.input inputPath).calls.Succeeds → 0 ≤ (world.output (outputUrl outputDir)).avformatAllocOutputContext2 →
        0 ≤ (world.output (outputUrl outputDir)).avioOpen2)

instance (calls : Handles.InputCalls) : Decidable calls.Succeeds :=
  inferInstanceAs (Decidable (_ ∧ _ ∧ (∀ stream ∈ calls.streams, stream.opens = true) ∧ _))

instance (calls : Handles.OutputCalls) : Decidable calls.Succeeds :=
  inferInstanceAs (Decidable (_ ∧ _ ∧ (∀ stream ∈ calls.streams, stream.makes = true) ∧ _))

/-- there is a model, and the input and the output open -/
def Opens : Prop :=
  (∃ modelPath model, world.upscalerPath = some modelPath ∧ world.createModel modelPath = .ok model) ∧
    (world.input inputPath).calls.Succeeds ∧
    ((world.output (outputUrl outputDir)).calls (world.outputStreams inputPath)).Succeeds

end World

/-! ## A file of one video stream -/

/-- each packet becomes a frame of 16 by 8 at once -/
def sixteenByEight : Codec Unit ℕ (AVFrame Unit) where
  init := ()
  take _ _ := ((), [⟨16, 8, .other 0, Upscale.noPlanes, ()⟩])
  flush _ := []
  busy _ _ := false

/-- a packet for each frame, which tells its width -/
def widths : Codec Unit (AVFrame Unit) ℕ where
  init := ()
  take _ frame := ((), [frame.width])
  flush _ := []
  busy _ _ := false

/-- these packets, and no call fails -/
def oneVideo (packets : List ℕ) : World Unit ℕ Unit ℕ Unit where
  upscalerPath := some "upscaler.tflite"
  createModel _ := .ok fun _ => Upscale.black
  input _ := ⟨true, 0, 0, true, [⟨.video, 2, ⟨1, 25⟩, 2, 16, 8, .other 0, ⟨27, true, true, 0⟩, sixteenByEight⟩],
    packets.map fun p => .ok ⟨some p, 0⟩⟩
  output _ := ⟨0, 0, fun _ => ⟨true, true, 0, true, 0⟩, fun num den => ⟨num, den⟩, fun _ => widths, 0, fun _ => 1 / 25, true⟩
  avErrToStr _ := "Unknown error"
  frameFails _ _ := false
  conversion _ := Upscale.quiet
  muxer := ⟨fun _ => none, fun _ _ data => data, fun _ => "Unknown error"⟩
  mapOrder := ⟨id, List.Perm.refl⟩
  flushOrder := id
  flushOrder_perm := List.Perm.refl

/-! ## The streams -/

section Streams

variable (streams : List (InputStream σ P π)) (out : OutputFile σ' P' π)

theorem length_mediaInfo : (createMediaInfo streams).length = (streams.map InputStream.avStream).length := by
  rw [createMediaInfo, List.length_mapIdx, List.length_map]

theorem upscaled_streamIndex (factor : ℕ) (info : StreamInfo) : (info.upscaled factor).streamIndex = info.streamIndex := by
  unfold StreamInfo.upscaled
  split <;> rfl

theorem upscaled_kind (factor : ℕ) (info : StreamInfo) : (info.upscaled factor).typeInfo.kind = info.typeInfo.kind := by
  unfold StreamInfo.upscaled
  split
  · rename_i v hv
    rw [hv]
    rfl
  · rfl

/-- the streams are numbered from 0 on -/
theorem streamIndex_nodup :
    (((createMediaInfo streams).map (StreamInfo.upscaled Upscale.kUpscale)).map StreamInfo.streamIndex).Nodup := by
  have hindices : ((createMediaInfo streams).map (StreamInfo.upscaled Upscale.kUpscale)).map StreamInfo.streamIndex =
      (List.range streams.length).map (Nat.cast : ℕ → ℤ) := by
    refine List.ext_getElem (by simp [createMediaInfo]) fun i h₁ h₂ => ?_
    simp [upscaled_streamIndex, createMediaInfo, streamInfo]
  rw [hindices]
  exact List.nodup_range.map Nat.cast_injective

/-- no two encoders are made for one stream index -/
theorem made_nodup :
    (Handles.made (out.calls ((createMediaInfo streams).map (StreamInfo.upscaled Upscale.kUpscale))).streams).Nodup := by
  refine List.Nodup.sublist ?_ (streamIndex_nodup streams)
  have hall : (out.calls ((createMediaInfo streams).map (StreamInfo.upscaled Upscale.kUpscale))).streams.map
      Handles.EncoderCalls.streamIndex =
      ((createMediaInfo streams).map (StreamInfo.upscaled Upscale.kUpscale)).map StreamInfo.streamIndex := by
    rw [OutputFile.calls, List.map_map]
    rfl
  rw [← hall]
  exact (List.takeWhile_sublist _).map _

/-- a writer is only made for videos -/
theorem video_of_succeeds {streams : List (InputStream σ P π)} {out : OutputFile σ' P' π}
    (h : (out.calls ((createMediaInfo streams).map (StreamInfo.upscaled Upscale.kUpscale))).Succeeds) :
    ∀ s ∈ streams, s.codecType = .video := by
  intro s hs
  obtain ⟨i, hi⟩ := List.mem_iff_getElem?.1 hs
  have hinfo : streamInfo i s ∈ createMediaInfo streams := by
    refine List.mem_iff_getElem?.2 ⟨i, ?_⟩
    rw [createMediaInfo, List.getElem?_mapIdx, hi]
    rfl
  have hmakes := h.2.2.1 (out.encoderCalls ((streamInfo i s).upscaled Upscale.kUpscale))
    (List.mem_map_of_mem (List.mem_map_of_mem hinfo))
  have hkind : (streamInfo i s).typeInfo.kind = .video := by
    rw [← upscaled_kind Upscale.kUpscale]
    simp only [Handles.EncoderCalls.makes, Bool.and_eq_true, decide_eq_true_eq] at hmakes
    exact hmakes.1.1.1.1.1
  unfold streamInfo at hkind
  cases htype : s.codecType with
  | video => rfl
  | audio => simp [htype, TypeInfo.kind] at hkind
  | unknown => simp [htype, TypeInfo.kind] at hkind

/-- output stream i, for a video -/
def videoStream (i : ℕ) (s : InputStream σ P π) : Writer.StreamInfo σ' (AVFrame π) P' :=
  ⟨i, s.timeBase.num / s.timeBase.den,
    out.encoder ⟨s.height * 4, s.width * 4, s.format, s.timeBase,
      out.avReduce (s.nbFrames * s.timeBase.den) (s.duration * s.timeBase.num)⟩⟩

theorem writerStreams_eq {streams : List (InputStream σ P π)} (h : ∀ s ∈ streams, s.codecType = .video) :
    ((createMediaInfo streams).map (StreamInfo.upscaled Upscale.kUpscale)).filterMap out.writerStream =
      streams.mapIdx (videoStream out) := by
  rw [createMediaInfo, List.mapIdx_eq_zipIdx_map, List.mapIdx_eq_zipIdx_map, List.map_map, List.filterMap_map,
    ← List.filterMap_eq_map]
  refine List.filterMap_congr fun p hp => ?_
  have hvideo := h p.1 (List.fst_mem_of_mem_zipIdx hp)
  simp [streamInfo, hvideo, StreamInfo.upscaled, OutputFile.writerStream, OutputFile.encoderParams, videoStream,
    Upscale.kUpscale]

theorem videoStreams_nodup : ((streams.mapIdx (videoStream out)).map Writer.StreamInfo.streamIndex).Nodup := by
  have hindices : (streams.mapIdx (videoStream out)).map Writer.StreamInfo.streamIndex =
      (List.range streams.length).map (Nat.cast : ℕ → ℤ) := by
    refine List.ext_getElem (by simp) fun i h₁ h₂ => ?_
    simp [videoStream]
  rw [hindices]
  exact List.nodup_range.map Nat.cast_injective

end Streams

/-! ## The ways it can go -/

section Cases

variable (world : World σ P σ' P' π) (inputPath outputDir : String)

/-- **Before the loop.** It fails without a call of the muxer, and whether a handle is lost is known then; or everything opens
without a loss, the reader and the writer are owed, and the loop decides. -/
theorem enhance_cases :
    (¬ world.Opens inputPath outputDir ∧
      ∃ status l', (∀ fuel, world.enhanceVideoInternal inputPath outputDir fuel .empty =
        some ⟨.returned (.error status), [], l'⟩) ∧ (l'.Settled ↔ world.NothingLost inputPath outputDir)) ∨
    ∃ modelPath model frameReader frameWriter l', world.upscalerPath = some modelPath ∧
      world.createModel modelPath = .ok model ∧ (world.input inputPath).calls.Succeeds ∧
      ((world.output (outputUrl outputDir)).calls (world.outputStreams inputPath)).Succeeds ∧
      (world.start inputPath outputDir l').Owes
        (Handles.FrameWriter.handles frameWriter ++ Handles.FrameReader.handles frameReader) ∧
      world.NothingLost inputPath outputDir ∧
      ∀ fuel, world.enhanceVideoInternal inputPath outputDir fuel .empty =
        (enhanceLoop (world.loopCalls inputPath outputDir model) (createMediaInfo (world.input inputPath).streams) fuel 0
          (world.start inputPath outputDir l')).map (leave world.mapOrder frameReader frameWriter) := by
  have hsettled : (Ledger.empty : Ledger Handles.Kind).Settled := owes_empty.settled_iff.2 rfl
  unfold World.NothingLost World.Opens World.enhanceVideoInternal
  cases hpath : world.upscalerPath with
  | none => exact Or.inl ⟨by simp, _, _, fun _ => rfl, iff_of_true hsettled (by simp)⟩
  | some modelPath =>
    cases hmodel : world.createModel modelPath with
    | error status =>
      have hno : ¬ ∃ path model, some modelPath = some path ∧ world.createModel path = .ok model := by
        rintro ⟨path, model, heq, hok⟩
        cases heq
        cases hok.symm.trans hmodel
      exact Or.inl ⟨fun h => hno h.1, status, _, fun _ => by simp only [hmodel], iff_of_true hsettled fun h => absurd h hno⟩
    | ok model =>
      have hstarts : ∃ path model, some modelPath = some path ∧ world.createModel path = .ok model := ⟨_, _, rfl, hmodel⟩
      simp only [hmodel]
      have howned := owes_empty (κ := Handles.Kind)
      obtain ⟨lost, hreader, hlost⟩ :=
        Handles.reader_create_returns world.avErrToStr howned inputPath (world.input inputPath).calls
      rw [List.append_nil] at hreader
      rcases Handles.reader_create_cases world.avErrToStr howned inputPath (world.input inputPath).calls with
        ⟨hin, frameReader, l₁, hcall, -⟩ | ⟨hin, status, l₁, hcall⟩
      · rw [hcall] at hreader
        simp only [hcall]
        have hall : (world.input inputPath).calls.NothingLost := fun _ => ⟨hin.2.1, fun _ => hin.2.2.1⟩
        obtain rfl := hlost.2 hall
        rw [Returns, List.append_nil] at hreader
        obtain ⟨lost', hwriter, hlost'⟩ := Handles.writer_create_returns world.avErrToStr world.mapOrder hreader
          (outputUrl outputDir) ((world.output (outputUrl outputDir)).calls (world.outputStreams inputPath))
        have hcond : lost' = [] ↔ (0 ≤ (world.output (outputUrl outputDir)).avformatAllocOutputContext2 →
            0 ≤ (world.output (outputUrl outputDir)).avioOpen2) :=
          hlost'.trans (imp_congr_right fun _ => and_iff_left (made_nodup _ _))
        rcases Handles.writer_create_cases world.avErrToStr world.mapOrder hreader (outputUrl outputDir)
            ((world.output (outputUrl outputDir)).calls (world.outputStreams inputPath)) with
          ⟨hout, frameWriter, l₂, hcall'⟩ | ⟨hout, status, l₂, hcall'⟩
        · rw [hcall'] at hwriter
          have hopens : 0 ≤ (world.output (outputUrl outputDir)).avioOpen2 := hout.2.1
          obtain rfl := hcond.2 fun _ => hopens
          refine Or.inr ⟨modelPath, model, frameReader, frameWriter, l₂, rfl, hmodel, hin, hout, hwriter,
            fun _ => ⟨hall, fun _ _ => hopens⟩, fun fuel => ?_⟩
          simp only [hcall']
        · rw [hcall'] at hwriter
          refine Or.inl ⟨fun h => hout h.2.2, status, frameReader.destroy l₂, fun _ => ?_, ?_⟩
          · simp only [hcall']
          · have hleft : (frameReader.destroy l₂).Owes lost' :=
              Handles.owes_reader_destroy (Owes.perm hwriter List.perm_append_comm)
            rw [hleft.settled_iff, hcond]
            exact ⟨fun h _ => ⟨hall, fun _ => h⟩, fun h => (h hstarts).2 hin⟩
      · rw [hcall] at hreader
        simp only [hcall]
        refine Or.inl ⟨fun h => hin h.2.1, status, l₁, fun _ => rfl, ?_⟩
        rw [Owes.settled_iff hreader, hlost]
        exact ⟨fun h _ => ⟨h, fun hok => absurd hok hin⟩, fun h => (h hstarts).1⟩

/-- the reader that is made has a decoder for each stream -/
theorem reads_reader (file : InputFile σ P π) : Reads (file.streams.map InputStream.avStream) file.reader :=
  ⟨rfl, by simp [InputFile.reader]⟩

end Cases

/-! ## What is written -/

section Written

variable {ff : Writer.Ffmpeg P'} {tb : ℕ → ℚ} {streams : List (Writer.StreamInfo σ' (AVFrame π) P')}
  {frames : List (Writer.Frame (AVFrame π))} {w w' : FrameWriter σ' (AVFrame π) P'}

/-- of each output stream the packets its encoder makes of these frames, nothing else, and then the trailer -/
structure Muxed (ff : Writer.Ffmpeg P') (tb : ℕ → ℚ) (streams : List (Writer.StreamInfo σ' (AVFrame π) P'))
    (frames : List (Writer.Frame (AVFrame π))) (log : List (Writer.Event P')) : Prop where
  packets : ∀ i s, streams[i]? = some s → muxedTo i log =
    (s.encoder.outputs s.encoder.init (Writer.framesOf s.streamIndex frames)).map (stampOf ff tb i s)
  inRange : ∀ packet ∈ muxed log, packet.streamIndex < streams.length
  trailer : ∃ before, log = before ++ [.writeTrailer] ∧ .writeTrailer ∉ before

/-- writes and a flush that return OK -/
theorem muxed_of_ok (hd : (streams.map Writer.StreamInfo.streamIndex).Nodup) {order : List ℤ}
    (horder : order.Perm (streams.map Writer.StreamInfo.streamIndex))
    (hwrites : WritesOk ff (FrameWriter.create tb streams) frames w) (hflush : w.flush ff order = some (.ok (), w')) :
    Muxed ff tb streams frames w'.log := by
  have hwritten := Writer.writes_written hd (Writer.created hd) hwrites
  rw [List.nil_append] at hwritten
  obtain ⟨w₁, hdone, hlog⟩ := Writer.flush_flushed hd hwritten horder hflush
  refine ⟨fun i s hs => ?_, fun packet hpacket => ?_, w₁.log, hlog, hdone.log.noTrailer⟩
  · rw [hlog, Writer.muxedTo_trailer]
    exact hdone.done i s hs List.not_mem_nil
  · obtain ⟨e, he, hp⟩ := List.mem_filterMap.1 hpacket
    rw [hlog, List.mem_append] at he
    rcases he with he | he
    · cases e with
      | writeFrame packet' =>
        cases hp
        exact hdone.log.indexed packet he
      | sendFrame k n => cases hp
      | writeTrailer => cases hp
    · rw [List.mem_singleton.1 he] at hp
      cases hp

/-- the encoder of k has delivered all it had, and takes frames -/
def Idle (w : FrameWriter σ' (AVFrame π) P') (k : ℤ) : Prop :=
  ∃ info, w.encoders k = some info ∧ info.encoderCtx.queue = [] ∧ info.encoderCtx.draining = false

/-- the encoders of the writer that is made -/
theorem created_idle (tb : ℕ → ℚ) (hd : (streams.map Writer.StreamInfo.streamIndex).Nodup) :
    ∀ k ∈ streams.map Writer.StreamInfo.streamIndex, Idle (FrameWriter.create tb streams) k := by
  intro k hk
  obtain ⟨s, hs, rfl⟩ := List.mem_map.1 hk
  obtain ⟨i, hi⟩ := List.mem_iff_getElem?.1 hs
  exact ⟨_, Writer.createEncoders_entry tb hd hi 0 fun _ => none, rfl, rfl⟩

theorem upscalesAll_forall₂ {calls : LoopCalls P' π} {n : ℕ} {fs : List (Engine.Frame (AVFrame π))}
    {gs : List (Upscale.Frame π)} (h : UpscalesAll calls n fs gs) :
    List.Forall₂ (fun f g => Upscaled (toUpscale f) g) fs gs := by
  induction h with
  | nil n => exact .nil
  | cons h _ ih => exact .cons (upscaleFrame_upscaled h) ih

end Written

/-! ## Setting out -/

section Setting

variable {world : World σ P σ' P' π} {inputPath outputDir : String}

/-- the order of a flush is one of the output streams -/
theorem loopCalls_order (outputDir : String) (model : ℕ → Upscale.LiteRt)
    (hvideo : ∀ s ∈ (world.input inputPath).streams, s.codecType = .video) :
    (world.loopCalls inputPath outputDir model).order.Perm
      (((world.input inputPath).streams.mapIdx (videoStream (world.output (outputUrl outputDir)))).map
        Writer.StreamInfo.streamIndex) := by
  have heq := writerStreams_eq (world.output (outputUrl outputDir)) hvideo
  rw [← heq]
  exact world.flushOrder_perm _

/-- the writer that is made for videos -/
theorem writer_eq (hvideo : ∀ s ∈ (world.input inputPath).streams, s.codecType = .video) :
    (world.output (outputUrl outputDir)).writer (world.outputStreams inputPath) =
      FrameWriter.create (world.output (outputUrl outputDir)).headerTimeBase
        ((world.input inputPath).streams.mapIdx (videoStream (world.output (outputUrl outputDir)))) := by
  rw [OutputFile.writer, World.outputStreams, writerStreams_eq _ hvideo]

theorem writer_configured (outputDir : String) (model : ℕ → Upscale.LiteRt)
    (hvideo : ∀ s ∈ (world.input inputPath).streams, s.codecType = .video) :
    ∀ k ∈ (world.loopCalls inputPath outputDir model).order,
      (((world.output (outputUrl outputDir)).writer (world.outputStreams inputPath)).encoders k).isSome := by
  intro k hk
  rw [writer_eq hvideo]
  obtain ⟨info, hinfo, -⟩ := created_idle _ (videoStreams_nodup _ _) k ((loopCalls_order outputDir model hvideo).mem_iff.1 hk)
  rw [hinfo]
  rfl

end Setting

/-! ## When nothing fails -/

section Quiet

variable {ff : Writer.Ffmpeg P'} {w w' : FrameWriter σ' (AVFrame π) P'} {k : ℤ}

theorem drainLoop_quiet (hquiet : ∀ n, ff.fault n = none) {fuel : ℕ} {info : Writer.EncoderInfo σ' (AVFrame π) P'}
    {status : Except Status Unit} (h : FrameWriter.drainLoop ff k fuel info w = some (status, w')) : status = .ok () := by
  induction fuel generalizing info w with
  | zero => cases h
  | succ fuel ih =>
    rw [FrameWriter.drainLoop, FrameWriter.receivePacket] at h
    simp only [hquiet] at h
    cases hq : info.encoderCtx.queue with
    | nil =>
      rw [Context.receive_nil hq] at h
      cases hd : info.encoderCtx.draining with
      | true =>
        simp only [hd] at h
        cases h
        rfl
      | false =>
        simp only [hd] at h
        cases h
        rfl
    | cons y q =>
      rw [Context.receive_cons hq] at h
      simp only [FrameWriter.interleavedWriteFrame, hquiet] at h
      exact ih h

/-- a call for an idle encoder returns OK, and leaves it idle if it was sent a frame -/
theorem encodeFrame_quiet (hquiet : ∀ n, ff.fault n = none) (hidle : Idle w k) (frame : Option (AVFrame π)) :
    ∃ w', w.encodeFrame ff k frame = some (.ok (), w') ∧ (∀ j, j ≠ k → w'.encoders j = w.encoders j) ∧
      (frame.isSome → Idle w' k) := by
  obtain ⟨info, hinfo, hqueue, hdraining⟩ := hidle
  have hready : info.encoderCtx.ready = true := by
    rw [Context.ready, hqueue]
    rfl
  have hsome : (w.encodeFrame ff k frame).isSome := Writer.encodeFrame_isSome hinfo frame
  obtain ⟨⟨status, w'⟩, hcall⟩ := Option.isSome_iff_exists.1 hsome
  have hok : status = .ok () := by
    rw [FrameWriter.encodeFrame, hinfo] at hcall
    simp only [FrameWriter.sendFrame, hquiet, Context.send_ready hdraining hready] at hcall
    exact drainLoop_quiet hquiet hcall
  subst hok
  obtain ⟨c, hsend, hencoders, -⟩ := Writer.encodeFrame_ok hcall hinfo
  refine ⟨w', hcall, fun j hj => by rw [hencoders, Function.update_of_ne hj], ?_⟩
  intro hframe
  obtain ⟨f, rfl⟩ := Option.isSome_iff_exists.1 hframe
  rw [Context.send_ready hdraining hready] at hsend
  obtain rfl : info.encoderCtx.take f = c := (Prod.mk.inj hsend).2
  exact ⟨info.withCtx { info.encoderCtx.take f with queue := [] }, by rw [hencoders, Function.update_self], rfl, hdraining⟩

theorem writes_quiet (hquiet : ∀ n, ff.fault n = none) {ks : List ℤ} (hidle : ∀ k ∈ ks, Idle w k)
    {frames : List (Writer.Frame (AVFrame π))} (hframes : ∀ f ∈ frames, f.streamIndex ∈ ks) :
    ∃ w', WritesOk ff w frames w' ∧ ∀ k ∈ ks, Idle w' k := by
  induction frames generalizing w with
  | nil => exact ⟨w, .nil w, hidle⟩
  | cons f frames ih =>
    have hf := hidle f.streamIndex (hframes f List.mem_cons_self)
    obtain ⟨w₁, hcall, hothers, hsame⟩ := encodeFrame_quiet hquiet hf (some f.frame)
    have hwrite : w.write ff f = some (.ok (), w₁) := by
      obtain ⟨info, hinfo, -⟩ := hf
      rw [FrameWriter.write, if_neg (by simp [hinfo]), hcall]
    have hidle' : ∀ k ∈ ks, Idle w₁ k := by
      intro k hk
      by_cases hkf : k = f.streamIndex
      · rw [hkf]
        exact hsame rfl
      · unfold Idle
        rw [hothers k hkf]
        exact hidle k hk
    obtain ⟨w', hwrites, hdone⟩ := ih hidle' fun g hg => hframes g (List.mem_cons_of_mem _ hg)
    exact ⟨w', .cons hwrite hwrites, hdone⟩

theorem flush_quiet (hquiet : ∀ n, ff.fault n = none) {order : List ℤ} (hd : order.Nodup) (hidle : ∀ k ∈ order, Idle w k) :
    ∃ w', w.flush ff order = some (.ok (), w') := by
  have hloop : ∃ w', FrameWriter.flushEncoders ff order w = some (.ok (), w') := by
    induction order generalizing w with
    | nil => exact ⟨w, rfl⟩
    | cons k order ih =>
      obtain ⟨hk, hd⟩ := List.nodup_cons.1 hd
      obtain ⟨w₁, hcall, hothers, -⟩ := encodeFrame_quiet hquiet (hidle k List.mem_cons_self) none
      obtain ⟨w', hrest⟩ := ih (w := w₁) hd fun j hj => by
        unfold Idle
        rw [hothers j fun hjk => hk (hjk ▸ hj)]
        exact hidle j (List.mem_cons_of_mem _ hj)
      exact ⟨w', by rw [FrameWriter.flushEncoders, hcall]; exact hrest⟩
  obtain ⟨w₁, hcall⟩ := hloop
  rw [FrameWriter.flush, hcall]
  simp only [FrameWriter.writeTrailer, hquiet]
  exact ⟨_, rfl⟩

theorem upscalesAll_quiet {calls : LoopCalls P' π} (hquiet : ∀ n, calls.Upscales n) {fs : List (Engine.Frame (AVFrame π))}
    (hfs : ∀ f ∈ fs, f.mediaType = .video ∧ f.frame.width * f.frame.height ≤ 240 * 240) (n : ℕ) :
    ∃ gs, UpscalesAll calls n fs gs := by
  induction fs generalizing n with
  | nil => exact ⟨[], .nil n⟩
  | cons f fs ih =>
    obtain ⟨hvideo, hroom⟩ := hfs f List.mem_cons_self
    have hframe : (toUpscale f).mediaType = .video := by
      rw [toUpscale, hvideo]
      rfl
    obtain ⟨g, hg⟩ := upscaleFrame_ok hroom hframe (hquiet n)
    obtain ⟨gs, hgs⟩ := ih (fun f' hf' => hfs f' (List.mem_cons_of_mem _ hf')) (n + 1)
    exact ⟨g :: gs, .cons hg hgs⟩

end Quiet

section NothingFails

variable {world : World σ P σ' P' π} {inputPath outputDir : String} {packets : List (ℕ × P)}

/-- an input of these packets for which no call fails: its decoders keep up with one frame received after each packet,
and their frames fit the model -/
structure NothingFails (world : World σ P σ' P' π) (inputPath outputDir : String) (packets : List (ℕ × P)) : Prop where
  starts : ∃ modelPath model, world.upscalerPath = some modelPath ∧ world.createModel modelPath = .ok model ∧
    ∀ n, (model n).Succeeds
  opens : (world.input inputPath).calls.Succeeds
  makes : ((world.output (outputUrl outputDir)).calls (world.outputStreams inputPath)).Succeeds
  reads : (world.input inputPath).reads = packets.map fun p => .ok ⟨some p.2, p.1⟩
  inRange : ∀ p ∈ packets, p.1 < (world.input inputPath).streams.length
  nonempty : 0 < (world.input inputPath).streams.length
  keepsUp : ∀ (i : ℕ) (s : InputStream σ P π), (world.input inputPath).streams[i]? = some s →
    Engine.KeepsUp (i = 0) (Context.start s.decoder) (Engine.packetsOf i packets)
  room : ∀ (i : ℕ) (s : InputStream σ P π), (world.input inputPath).streams[i]? = some s →
    ∀ y ∈ s.decoder.outputs s.decoder.init (Engine.packetsOf i packets), y.width * y.height ≤ 240 * 240
  allocates : ∀ n m, world.frameFails n m = false
  converts : ∀ n, (world.conversion n).Succeeds
  muxes : ∀ n, world.muxer.fault n = none

theorem upscaled_indices {fs : List (Engine.Frame (AVFrame π))} {gs : List (Upscale.Frame π)}
    (h : List.Forall₂ (fun f g => Upscaled (toUpscale f) g) fs gs) :
    gs.map Upscale.Frame.streamIndex = fs.map Engine.Frame.streamIndex := by
  induction h with
  | nil => rfl
  | cons hfg _ ih => exact congrArg₂ List.cons hfg.streamIndex ih

/-- frames that are read have the index and the media type of a stream of the input -/
theorem readsAll_tag {avErrToStr : Refusal → String} {inputs : List (Engine.AVStream σ P (AVFrame π))}
    {r : FrameReader σ P (AVFrame π)} {fs : List (Engine.Frame (AVFrame π))} (hr : Reads inputs r)
    (h : ReadsAll avErrToStr r fs) :
    ∀ f ∈ fs, ∃ (i : ℕ) (s : Engine.AVStream σ P (AVFrame π)), f.streamIndex = i ∧ inputs[i]? = some s ∧
      f.mediaType = s.codecType := by
  induction h with
  | eof _ => exact fun f hf => absurd hf List.not_mem_nil
  | frame hread _ ih =>
    intro f hf
    rcases List.mem_cons.1 hf with rfl | hf
    · exact frame_inRange hr hread
    · exact ih (hr.readNextFrame hread) f hf

/-- the input as a container of these packets -/
def NothingFails.container (h : NothingFails world inputPath outputDir packets) : Engine.Container σ P (AVFrame π) where
  streams := (world.input inputPath).streams.map InputStream.avStream
  packets := packets
  inRange := by simpa using h.inRange

/-- the reader comes to the end of the file and returns all frames, and the model has room for them -/
theorem NothingFails.readsAll (h : NothingFails world inputPath outputDir packets) (avErrToStr : Refusal → String) :
    ∃ fs, ReadsAll avErrToStr (world.input inputPath).reader fs ∧
      (∀ i s, (world.input inputPath).streams[i]? = some s →
        Engine.framesOf i fs = s.decoder.outputs s.decoder.init (Engine.packetsOf i packets)) ∧
      ∀ f ∈ fs, f.mediaType = .video ∧ f.frame.width * f.frame.height ≤ 240 * 240 ∧
        f.streamIndex ∈ ((world.input inputPath).streams.mapIdx (videoStream (world.output (outputUrl outputDir)))).map
          Writer.StreamInfo.streamIndex := by
  have hvideo := video_of_succeeds h.makes
  have hlossless : Engine.LosesNoFrame avErrToStr h.container := by
    rw [Engine.losesNoFrame_iff_lossless]
    refine ⟨by simpa [NothingFails.container] using h.nonempty, ?_⟩
    intro i c hc
    simp only [NothingFails.container, List.map_map, List.getElem?_map, Option.map_eq_some_iff] at hc
    obtain ⟨s, hs, rfl⟩ := hc
    exact h.keepsUp i s hs
  have hreader : h.container.create = (world.input inputPath).reader := by
    simp only [Engine.Container.create, NothingFails.container, Engine.readerAt, InputFile.reader, h.reads, List.map_map]
    rfl
  obtain ⟨fs, hreads, hframes⟩ := hlossless
  rw [hreader] at hreads
  have hproduced : ∀ i s, (world.input inputPath).streams[i]? = some s →
      Engine.framesOf i fs = s.decoder.outputs s.decoder.init (Engine.packetsOf i packets) := by
    intro i s hs
    rw [hframes i]
    simp [Engine.Container.produced, NothingFails.container, hs, InputStream.avStream]
  refine ⟨fs, hreads, hproduced, ?_⟩
  intro f hf
  obtain ⟨i, av, hindex, hget, htype⟩ := readsAll_tag (reads_reader _) hreads f hf
  rw [List.getElem?_map, Option.map_eq_some_iff] at hget
  obtain ⟨s, hs, rfl⟩ := hget
  refine ⟨htype.trans (hvideo s (List.mem_of_getElem? hs)), h.room i s hs _ ?_, ?_⟩
  · rw [← hproduced i s hs]
    exact List.mem_map_of_mem (List.mem_filter.2 ⟨hf, by simp [hindex]⟩)
  · refine List.mem_map.2 ⟨videoStream (world.output (outputUrl outputDir)) i s, List.mem_iff_getElem?.2 ⟨i, ?_⟩,
      hindex.symm⟩
    rw [List.getElem?_mapIdx, hs]
    rfl

/-- the run: every stage goes through to its end -/
theorem NothingFails.runs (h : NothingFails world inputPath outputDir packets) :
    ∃ fuel outcome modelPath model fs gs, world.enhanceVideoInternal inputPath outputDir fuel .empty = some outcome ∧
      outcome.exit = .returned (.ok ()) ∧ world.upscalerPath = some modelPath ∧ world.createModel modelPath = .ok model ∧
      ReadsAll (fun e => world.avErrToStr (errorCode e)) (world.input inputPath).reader fs ∧
      UpscalesAll (world.loopCalls inputPath outputDir model) 0 fs gs ∧
      (∀ i s, (world.input inputPath).streams[i]? = some s →
        Engine.framesOf i fs = s.decoder.outputs s.decoder.init (Engine.packetsOf i packets)) ∧
      Muxed world.muxer (world.output (outputUrl outputDir)).headerTimeBase
        ((world.input inputPath).streams.mapIdx (videoStream (world.output (outputUrl outputDir)))) (gs.map toWrite)
        outcome.log := by
  obtain ⟨modelPath, model, hpath, hmodel, hsucceeds⟩ := h.starts
  have hvideo := video_of_succeeds h.makes
  have hnodup := videoStreams_nodup (world.input inputPath).streams (world.output (outputUrl outputDir))
  rcases enhance_cases world inputPath outputDir with
    ⟨hno, -⟩ | ⟨modelPath', model', frameReader, frameWriter, l', hpath', hmodel', -, -, howes, -, hcall⟩
  · exact absurd ⟨⟨modelPath, model, hpath, hmodel⟩, h.opens, h.makes⟩ hno
  · cases hpath.symm.trans hpath'
    cases hmodel.symm.trans hmodel'
    obtain ⟨fs, hreads, hproduced, hfs⟩ := h.readsAll fun e => world.avErrToStr (errorCode e)
    have hquiet : ∀ n, (world.loopCalls inputPath outputDir model).Upscales n := fun n => ⟨h.converts n, hsucceeds n⟩
    obtain ⟨gs, hups⟩ := upscalesAll_quiet hquiet (fun f hf => ⟨(hfs f hf).1, (hfs f hf).2.1⟩) 0
    have hforall := upscalesAll_forall₂ hups
    have hindices : ∀ g ∈ gs.map toWrite, g.streamIndex ∈ ((world.input inputPath).streams.mapIdx
        (videoStream (world.output (outputUrl outputDir)))).map Writer.StreamInfo.streamIndex := by
      intro g hg
      obtain ⟨g, hgs, rfl⟩ := List.mem_map.1 hg
      have hmem : g.streamIndex ∈ fs.map Engine.Frame.streamIndex := by
        rw [← upscaled_indices hforall]
        exact List.mem_map_of_mem hgs
      obtain ⟨f, hf, hindex⟩ := List.mem_map.1 hmem
      change g.streamIndex ∈ _
      rw [← hindex]
      exact (hfs f hf).2.2
    obtain ⟨w₁, hwrites, hidle⟩ := writes_quiet h.muxes
      (created_idle (world.output (outputUrl outputDir)).headerTimeBase hnodup) hindices
    have horder := loopCalls_order outputDir model hvideo
    obtain ⟨w', hflush⟩ := flush_quiet h.muxes (horder.nodup_iff.2 hnodup) fun k hk => hidle k (horder.mem_iff.1 hk)
    have hmuxed := muxed_of_ok hnodup horder hwrites hflush
    rw [← writer_eq hvideo] at hwrites
    obtain ⟨fuel, s', hloop, rfl⟩ := enhanceLoop_of_ok (s := world.start inputPath outputDir l')
      (reads_reader (world.input inputPath)) (length_mediaInfo _) (writer_configured outputDir model hvideo) howes
      h.allocates hreads hups hwrites hflush
    exact ⟨fuel, _, modelPath, model, fs, gs, by rw [hcall, hloop]; rfl, rfl, hpath, hmodel, hreads, hups, hproduced, hmuxed⟩

/-- the model has room for every frame that can be read -/
theorem NothingFails.room_canRead (h : NothingFails world inputPath outputDir packets) (f : Engine.Frame (AVFrame π))
    (hf : CanRead (fun e => world.avErrToStr (errorCode e)) (world.input inputPath).reader f) :
    f.frame.width * f.frame.height ≤ 240 * 240 := by
  obtain ⟨fs, hreads, -, hfs⟩ := h.readsAll fun e => world.avErrToStr (errorCode e)
  exact (hfs f (canRead_mem hreads hf)).2.1

theorem oneVideo_nothingFails : NothingFails (oneVideo [10, 20]) "input.mp4" "output" [(0, 10), (0, 20)] := by
  refine ⟨⟨_, _, rfl, rfl, fun _ => ⟨rfl, rfl, rfl, rfl, rfl⟩⟩, by decide, by decide, rfl, by decide, by decide, ?_, ?_,
    fun _ _ => rfl, fun _ => ⟨⟨rfl, rfl, rfl⟩, rfl, rfl, rfl, rfl, rfl⟩, fun _ => rfl⟩
  · rintro (_ | i) s hs
    · cases hs
      exact ⟨rfl, rfl, fun _ => rfl, fun hne => absurd rfl hne⟩
    · cases hs
  · rintro (_ | i) s hs
    · cases hs
      decide
    · cases hs

end NothingFails

/-! ## Results -/

section Results

variable {world : World σ P σ' P' π} {inputPath outputDir : String}

/-- **Ending.** It ends, whatever the calls answer, and if the model has room for every frame it returns a status. -/
theorem enhance_returns (world : World σ P σ' P' π) (inputPath outputDir : String) :
    (∃ fuel, (world.enhanceVideoInternal inputPath outputDir fuel .empty).isSome) ∧
    ((∀ f, CanRead (fun e => world.avErrToStr (errorCode e)) (world.input inputPath).reader f →
        f.frame.width * f.frame.height ≤ 240 * 240) →
      ∀ fuel outcome, world.enhanceVideoInternal inputPath outputDir fuel .empty = some outcome →
        ∃ status, outcome.exit = .returned status) := by
  rcases enhance_cases world inputPath outputDir with
    ⟨-, status, l', hcall, -⟩ | ⟨modelPath, model, frameReader, frameWriter, l', -, -, -, hout, howes, -, hcall⟩
  · refine ⟨⟨0, by rw [hcall]; rfl⟩, ?_⟩
    intro _ fuel outcome h
    rw [hcall] at h
    obtain rfl := Option.some.inj h
    exact ⟨_, rfl⟩
  · have hreads : Reads _ (world.start inputPath outputDir l').reader.reader := reads_reader (world.input inputPath)
    have hlength := length_mediaInfo (world.input inputPath).streams
    have hconfigured := writer_configured outputDir model (video_of_succeeds hout)
    refine ⟨?_, fun hroom fuel outcome h => ?_⟩
    · obtain ⟨fuel, hsome⟩ := enhanceLoop_isSome hreads hlength hconfigured howes 0
      exact ⟨fuel, by rw [hcall, Option.isSome_map]; exact hsome⟩
    · rw [hcall] at h
      obtain ⟨⟨exit, s'⟩, hloop, rfl⟩ := Option.map_eq_some_iff.1 h
      obtain ⟨status, rfl⟩ := enhanceLoop_returns hreads hlength hconfigured howes hroom hloop
      exact ⟨status, rfl⟩

theorem enhance_returns_oneVideo :
    ∃ fuel outcome, (oneVideo [10, 20]).enhanceVideoInternal "input.mp4" "output" fuel .empty = some outcome ∧
      ∃ status, outcome.exit = .returned status := by
  obtain ⟨fuel, outcome, -, -, -, -, hrun, -⟩ := oneVideo_nothingFails.runs
  exact ⟨fuel, outcome, hrun,
    (enhance_returns (oneVideo [10, 20]) "input.mp4" "output").2 oneVideo_nothingFails.room_canRead fuel outcome hrun⟩

/-- behind a return nothing is owed -/
theorem leave_settled {mapOrder : Handles.MapOrder} {frameReader : Handles.FrameReader} {frameWriter : Handles.FrameWriter}
    {s : LoopState σ P σ' P' π} (h : s.Owes (frameWriter.handles ++ frameReader.handles)) (status : Except Status Unit) :
    (leave mapOrder frameReader frameWriter (.returned status, s)).ledger.Settled := by
  have hwriter : (destroyWriter mapOrder frameWriter s.writer s.ledger).Owes
      (s.reader.payload.toList ++ frameReader.handles) :=
    Handles.owes_writer_destroy mapOrder (Owes.swap (Handles.owes_free (Owes.swap h)))
  have hreader := Handles.owes_free hwriter
  rw [← List.append_nil frameReader.handles] at hreader
  exact (Handles.owes_reader_destroy hreader).settled_iff.2 rfl

/-- **Released.** Wherever it returns, everything is freed exactly if no handle is lost in front of the loop. -/
theorem enhance_releases_iff {fuel : ℕ} {outcome : Outcome P'}
    (h : world.enhanceVideoInternal inputPath outputDir fuel .empty = some outcome)
    (hexit : ∃ status, outcome.exit = .returned status) :
    outcome.ledger.Settled ↔ world.NothingLost inputPath outputDir := by
  rcases enhance_cases world inputPath outputDir with
    ⟨-, status, l', hcall, hiff⟩ | ⟨modelPath, model, frameReader, frameWriter, l', -, -, -, hout, howes, hnothing, hcall⟩
  · rw [hcall] at h
    obtain rfl := Option.some.inj h
    exact hiff
  · rw [hcall] at h
    obtain ⟨⟨exit, s'⟩, hloop, rfl⟩ := Option.map_eq_some_iff.1 h
    cases exit with
    | undefined =>
      obtain ⟨status, hstatus⟩ := hexit
      cases hstatus
    | returned status =>
      have hleft : s'.Owes _ := enhanceLoop_owes (reads_reader (world.input inputPath)) (length_mediaInfo _)
        (writer_configured outputDir model (video_of_succeeds hout)) howes hloop
      exact iff_of_true (leave_settled hleft status) hnothing

theorem enhance_releases_iff_oneVideo :
    ∃ fuel outcome, (oneVideo [10, 20]).enhanceVideoInternal "input.mp4" "output" fuel .empty = some outcome ∧
      (outcome.ledger.Settled ↔ (oneVideo [10, 20]).NothingLost "input.mp4" "output") := by
  obtain ⟨fuel, outcome, -, -, -, -, hrun, hok, -⟩ := oneVideo_nothingFails.runs
  exact ⟨fuel, outcome, hrun, enhance_releases_iff hrun ⟨_, hok⟩⟩

/-- **OK.** Every stream is a video, the reader came to the end of the file, each frame it returned was upscaled, and each
output stream was handed the packets its encoder makes of what the upscaler returned for its frames, each once and in order,
before the trailer. -/
theorem enhance_ok {fuel : ℕ} {outcome : Outcome P'}
    (h : world.enhanceVideoInternal inputPath outputDir fuel .empty = some outcome)
    (hok : outcome.exit = .returned (.ok ())) :
    (∀ s ∈ (world.input inputPath).streams, s.codecType = .video) ∧
    ∃ modelPath model fs gs, world.upscalerPath = some modelPath ∧ world.createModel modelPath = .ok model ∧
      ReadsAll (fun e => world.avErrToStr (errorCode e)) (world.input inputPath).reader fs ∧
      UpscalesAll (world.loopCalls inputPath outputDir model) 0 fs gs ∧
      List.Forall₂ (fun f g => Upscaled (toUpscale f) g) fs gs ∧
      Muxed world.muxer (world.output (outputUrl outputDir)).headerTimeBase
        ((world.input inputPath).streams.mapIdx (videoStream (world.output (outputUrl outputDir)))) (gs.map toWrite)
        outcome.log := by
  rcases enhance_cases world inputPath outputDir with
    ⟨-, status, l', hcall, -⟩ | ⟨modelPath, model, frameReader, frameWriter, l', hpath, hmodel, -, hout, howes, -, hcall⟩
  · rw [hcall] at h
    obtain rfl := Option.some.inj h
    cases hok
  · have hvideo := video_of_succeeds hout
    rw [hcall] at h
    obtain ⟨⟨exit, s'⟩, hloop, rfl⟩ := Option.map_eq_some_iff.1 h
    cases exit with
    | undefined => cases hok
    | returned status =>
      obtain rfl : status = .ok () := Exit.returned.inj hok
      obtain ⟨fs, gs, w₁, hreads, hups, hwrites, hflush⟩ := enhanceLoop_ok (reads_reader (world.input inputPath))
        (length_mediaInfo _) (writer_configured outputDir model hvideo) howes hloop
      have hstart : (world.start inputPath outputDir l').writer.writer = _ := writer_eq hvideo
      rw [hstart] at hwrites
      exact ⟨hvideo, modelPath, model, fs, gs, hpath, hmodel, hreads, hups, upscalesAll_forall₂ hups,
        muxed_of_ok (videoStreams_nodup _ _) (loopCalls_order outputDir model hvideo) hwrites hflush⟩

theorem enhance_ok_oneVideo :
    ∃ fuel outcome model fs gs,
      (oneVideo [10, 20]).enhanceVideoInternal "input.mp4" "output" fuel .empty = some outcome ∧
      ReadsAll (fun _ => "Unknown error") ((oneVideo [10, 20]).input "input.mp4").reader fs ∧
      UpscalesAll ((oneVideo [10, 20]).loopCalls "input.mp4" "output" model) 0 fs gs ∧
      Muxed (oneVideo [10, 20]).muxer (fun _ => 1 / 25)
        (((oneVideo [10, 20]).input "input.mp4").streams.mapIdx (videoStream ((oneVideo [10, 20]).output "output/output.mp4")))
        (List.map toWrite gs) outcome.log := by
  obtain ⟨fuel, outcome, -, -, -, -, hrun, hexit, -⟩ := oneVideo_nothingFails.runs
  obtain ⟨-, -, model, fs, gs, -, -, hreads, hups, -, hmuxed⟩ := enhance_ok hrun hexit
  exact ⟨fuel, outcome, model, fs, gs, hrun, hreads, hups, hmuxed⟩

end Results

end Viduce.Enhance
