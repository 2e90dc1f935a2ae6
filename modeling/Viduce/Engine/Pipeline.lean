/-
The loop of `EnhanceVideoInternal` (`engine_api.cc`): a frame is read, upscaled and written before the next one is read, and
the writer is flushed when the reader has no more.

- `rank_frame`, `enhanceLoop_isSome`: every frame leaves the reader less to do, and so the loop ends.
- `frame_inRange`: the stream index of a frame is one of the input's, as the loop takes for granted.
- `enhanceLoop_returns`: with frames the model has room for, the loop returns a status.
- `enhanceLoop_owes`: whichever return it takes, all frames are destroyed, and no context and no tensor buffer is left.
- `enhanceLoop_ok`, `enhanceLoop_of_ok`: it returns OK if reading everything, upscaling everything and writing everything, one
  after the other, all do, and only then, and it leaves the same writer.

`undefined` is an index outside a vector or an exception.
-/
import Mathlib.Tactic
import Viduce.Engine.FrameHandles

namespace Viduce.Enhance

open Viduce.Absl Viduce.FrameHandles Viduce.Ledger Viduce.SendReceive
open Viduce.Engine (FrameReader ReadsAll)
open Viduce.Handles (Kind)
open Viduce.Writer (FrameWriter WritesOk)
open Viduce.Upscale (AVFrame)

variable {σ P σ' P' π : Type}

/-! ## Media info -/

structure AVRational where
  num : ℤ
  den : ℤ
deriving DecidableEq, Repr

structure VideoInfo where
  width : ℕ
  height : ℕ
  pixFmt : Upscale.AVPixelFormat
deriving DecidableEq, Repr

inductive TypeInfo where
  | monostate
  | video (info : VideoInfo)
  | audio
deriving DecidableEq, Repr

structure StreamInfo where
  streamIndex : ℤ
  numFrames : ℤ
  codecId : ℤ
  timeBase : AVRational
  duration : ℤ
  typeInfo : TypeInfo
deriving DecidableEq, Repr

/-! ## The loop -/

/-- what FFmpeg and LiteRT answer in the loop -/
structure LoopCalls (P' π : Type) where
  /-- `util::AvErrToStr`, in the reader -/
  avErrToStr : Refusal → String
  /-- in which iterations of the n-th read no frame can be allocated -/
  frameFails : ℕ → ℕ → Bool
  /-- the colour conversions of the n-th frame -/
  conversion : ℕ → Upscale.Ffmpeg π
  /-- the model on the n-th frame -/
  model : ℕ → Upscale.LiteRt
  muxer : Writer.Ffmpeg P'
  /-- the order in which the writer's map is gone through -/
  order : List ℤ

inductive Exit where
  | returned (status : Except Status Unit)
  | undefined

/-- the media type as the upscaler tells it -/
def toMediaType : Engine.AVMediaType → Upscale.AVMediaType
  | .video => .video
  | _ => .other

/-- a frame of the reader, as the upscaler takes it -/
def toUpscale (f : Engine.Frame (AVFrame π)) : Upscale.Frame π := ⟨f.streamIndex, toMediaType f.mediaType, f.frame⟩

/-- a frame of the upscaler, as the writer takes it -/
def toWrite (f : Upscale.Frame π) : Writer.Frame (AVFrame π) := ⟨f.streamIndex, f.frame⟩

instance (frame : AVFrame π) : Decidable (Upscale.PlanesInside frame) := by
  unfold Upscale.PlanesInside Upscale.Plane.Inside
  infer_instance

section Loop

variable (calls : LoopCalls P' π)

/-- the frame that is laid over the numbers of the model -/
def laid (n : ℕ) (frame : Upscale.Frame π) : Except Status (Upscale.Frame π) := do
  let frame ← Upscale.validate (some frame)
  let input ← Upscale.toModelIo (calls.conversion n) frame
  let output ← (Upscale.modelImpl (calls.model n)).runModel input
  Upscale.tempFrame (calls.conversion n) frame output (Upscale.modelImpl (calls.model n)).scale

/-- `Upscale` on the n-th frame; `none` where it reads outside the numbers of the model -/
def upscaleFrame (n : ℕ) (frame : Upscale.Frame π) : Option (Except Status (Upscale.Frame π)) :=
  match laid calls n frame with
  | .error status => some (.error status)
  | .ok temp =>
    if Upscale.PlanesInside temp.frame then
      some (Upscale.upscale (calls.conversion n) (Upscale.modelImpl (calls.model n)) (some frame))
    else none

/-- the same with its handles -/
def heldUpscale (n : ℕ) (frame : Upscale.Frame π) (l : Ledger Kind) :
    Option (Except Status (Held (Upscale.Frame π)) × Ledger Kind) :=
  match laid calls n frame with
  | .error _ => some (FrameHandles.upscale (calls.conversion n) (calls.model n) frame l)
  | .ok temp =>
    if Upscale.PlanesInside temp.frame then some (FrameHandles.upscale (calls.conversion n) (calls.model n) frame l)
    else none

/-- an index into the stream infos -/
def streamAt (streams : List StreamInfo) (i : ℤ) : Option StreamInfo := if i < 0 then none else streams[i.toNat]?

/-- what the loop works on -/
structure LoopState (σ P σ' P' π : Type) where
  reader : HeldReader σ P (AVFrame π)
  writer : HeldWriter σ' (AVFrame π) P'
  ledger : Ledger Kind

/-- `while (true)` and the flush behind it, from the n-th frame on, for so many iterations; `none` is that they do not
suffice. The stream infos are indexed for the log. The frame is destroyed at the end of its iteration and on every return. -/
def enhanceLoop (streams : List StreamInfo) :
    ℕ → ℕ → LoopState σ P σ' P' π → Option (Exit × LoopState σ P σ' P' π)
  | 0, _, _ => none
  | fuel + 1, n, ⟨r, w, l⟩ =>
    match r.readNextFrame calls.avErrToStr (calls.frameFails n) l with
    | none => none
    | some (.error status, r, l) => some (.returned (.error ⟨.internal, status.message⟩), ⟨r, w, l⟩)
    -- done reading
    | some (.ok none, r, l) =>
      match w.flush calls.muxer calls.order l with
      | none => some (.undefined, ⟨r, w, l⟩)
      | some (status, w, l) => some (.returned status, ⟨r, w, l⟩)
    | some (.ok (some frame), r, l) =>
      match streamAt streams frame.frame.streamIndex with
      | none => some (.undefined, ⟨r, w, l⟩)
      | some _ =>
        match heldUpscale calls n (toUpscale frame.frame) l with
        | none => some (.undefined, ⟨r, w, l⟩)
        | some (.error status, l) => some (.returned (.error status), ⟨r, w, frame.destroy l⟩)
        | some (.ok upscaled, l) =>
          match w.write calls.muxer (upscaled.map toWrite) l with
          | none => some (.undefined, ⟨r, w, l⟩)
          | some (.error status, w, l) => some (.returned (.error status), ⟨r, w, frame.destroy l⟩)
          | some (.ok (), w, l) => enhanceLoop streams fuel (n + 1) ⟨r, w, frame.destroy l⟩

end Loop

/-! ## The reader moves on -/

section Reader

variable {F : Type} {avErrToStr : Refusal → String} {r r' : FrameReader σ P F}

/-- what a reader has still to do: answers of the demuxer, then flushing the first decoder, then its frames -/
def rank (r : FrameReader σ P F) : ℕ ×ₗ ℕ ×ₗ ℕ :=
  toLex (r.formatCtx.reads.length,
    toLex (r.codecs.head?.elim 0 fun c => if c.draining then 0 else 1, r.codecs.head?.elim 0 fun c => c.queue.length))

/-- a reader of these streams, with a decoder for each -/
structure Reads (streams : List (Engine.AVStream σ P F)) (r : FrameReader σ P F) : Prop where
  input : r.formatCtx.streams = streams
  codecs : r.codecs.length = streams.length

theorem feed_codecs (r : FrameReader σ P F) (packet : Engine.AVPacket P) :
    (r.feed avErrToStr packet).2.codecs.length = r.codecs.length := by
  unfold FrameReader.feed
  split
  · rfl
  · simp only
    split
    · split <;> exact List.length_set
    · split <;> exact List.length_set
    · exact List.length_set

/-- a frame is tagged with a stream in range and the media type of that stream -/
theorem feed_tag {packet : Engine.AVPacket P} {f : Engine.Frame F}
    (h : r.feed avErrToStr packet = (some (.ok (some f)), r')) :
    0 ≤ f.streamIndex ∧ f.streamIndex.toNat < r.codecs.length ∧ f.mediaType = r.mediaType f.streamIndex.toNat := by
  unfold FrameReader.feed at h
  split at h
  · cases h
  · rename_i hrange
    have hin : 0 ≤ packet.streamIndex ∧ packet.streamIndex.toNat < r.codecs.length := by omega
    simp only at h
    split at h
    · split at h <;> cases h
      exact ⟨hin.1, hin.2, rfl⟩
    · split at h <;> cases h
      exact ⟨hin.1, hin.2, rfl⟩
    · cases h

/-- the reader with other answers to come -/
def answering (r : FrameReader σ P F) (reads : List (Except Refusal (Engine.AVPacket P))) : FrameReader σ P F :=
  { r with formatCtx := { r.formatCtx with reads := reads } }

/-- an iteration takes an answer, if there is one, and feeds a decoder, or fails; at the end it feeds the blank packet -/
theorem iterate_cases (avErrToStr : Refusal → String) (r : FrameReader σ P F) :
    (r.formatCtx.reads = [] ∧ r.iterate avErrToStr = r.feed avErrToStr Engine.AVPacket.blank) ∨
    ∃ answer reads, r.formatCtx.reads = answer :: reads ∧
      ((∃ packet, r.iterate avErrToStr = (answering r reads).feed avErrToStr packet) ∨
        ∃ status, r.iterate avErrToStr = (some (.error status), answering r reads)) := by
  unfold FrameReader.iterate Engine.avReadFrame
  cases hreads : r.formatCtx.reads with
  | nil => exact Or.inl ⟨rfl, rfl⟩
  | cons answer reads =>
    refine Or.inr ⟨answer, reads, rfl, ?_⟩
    rcases answer with (_ | _ | _) | packet
    · exact Or.inr ⟨_, rfl⟩
    · exact Or.inl ⟨_, rfl⟩
    · exact Or.inr ⟨_, rfl⟩
    · exact Or.inl ⟨_, rfl⟩

theorem Reads.iterate {streams : List (Engine.AVStream σ P F)} (h : Reads streams r) :
    Reads streams (r.iterate avErrToStr).2 := by
  have hfeed : ∀ {r : FrameReader σ P F} packet, Reads streams r → Reads streams (r.feed avErrToStr packet).2 := by
    intro r packet h
    exact ⟨by rw [Engine.feed_formatCtx, h.input], by rw [feed_codecs, h.codecs]⟩
  rcases iterate_cases avErrToStr r with ⟨-, hcall⟩ | ⟨_, reads, -, ⟨packet, hcall⟩ | ⟨status, hcall⟩⟩
  · rw [hcall]
    exact hfeed _ h
  · rw [hcall]
    exact hfeed packet ⟨h.input, h.codecs⟩
  · rw [hcall]
    exact ⟨h.input, h.codecs⟩

theorem iterate_tag {streams : List (Engine.AVStream σ P F)} (h : Reads streams r) {f : Engine.Frame F}
    (hcall : r.iterate avErrToStr = (some (.ok (some f)), r')) :
    ∃ (i : ℕ) (s : Engine.AVStream σ P F), f.streamIndex = i ∧ streams[i]? = some s ∧ f.mediaType = s.codecType := by
  have hfeed : ∀ {r : FrameReader σ P F} {packet}, Reads streams r →
      r.feed avErrToStr packet = (some (.ok (some f)), r') →
      ∃ (i : ℕ) (s : Engine.AVStream σ P F), f.streamIndex = i ∧ streams[i]? = some s ∧ f.mediaType = s.codecType := by
    intro r packet h hcall
    obtain ⟨hpos, hlt, htype⟩ := feed_tag hcall
    rw [h.codecs] at hlt
    have hget := List.getElem?_eq_getElem hlt
    refine ⟨f.streamIndex.toNat, _, (Int.toNat_of_nonneg hpos).symm, hget, ?_⟩
    rw [htype, FrameReader.mediaType, h.input, hget]
    rfl
  rcases iterate_cases avErrToStr r with ⟨-, hiter⟩ | ⟨_, reads, -, ⟨packet, hiter⟩ | ⟨status, hiter⟩⟩
  · exact hfeed h (hiter.symm.trans hcall)
  · exact hfeed (r := answering r reads) ⟨h.input, h.codecs⟩ (hiter.symm.trans hcall)
  · cases hiter.symm.trans hcall

/-- at the end of the file, a frame is one less of the first decoder, or the first after its flush -/
theorem blank_rank {f : Engine.Frame F} (hreads : r.formatCtx.reads = [])
    (hcall : r.feed avErrToStr Engine.AVPacket.blank = (some (.ok (some f)), r')) : rank r' < rank r := by
  have hend := congrArg (fun x => x.2.formatCtx.reads) hcall
  simp only [Engine.feed_formatCtx, hreads] at hend
  rcases hcodecs : r.codecs with _ | ⟨c, rest⟩
  · obtain ⟨status, hfail⟩ := Engine.feed_no_streams avErrToStr hcodecs Engine.AVPacket.blank
    cases hfail.symm.trans hcall
  have hc : r.codecs[0]? = some c := by rw [hcodecs]; rfl
  rw [Engine.blank_eq] at hcall
  have hdelivers : ∀ c', Engine.Sends c none c' → c'.draining = true →
      ∃ y q, c'.queue = y :: q ∧ r' = r.setCodec 0 { c' with queue := q } := by
    intro c' hsends hdraining
    cases hq : c'.queue with
    | nil => cases (Engine.feed_eof avErrToStr hc hsends hdraining hq).symm.trans hcall
    | cons y q =>
      have hframe := (Engine.feed_frame avErrToStr hc hsends hq).symm.trans hcall
      exact ⟨y, q, rfl, (Prod.mk.inj hframe).2.symm⟩
  unfold rank
  rw [← hend, hreads, hcodecs]
  cases hd : c.draining with
  | true =>
    obtain ⟨y, q, hq, rfl⟩ := hdelivers c (Or.inr (Context.send_draining hd none)) hd
    simp [Prod.Lex.toLex_lt_toLex, FrameReader.setCodec, hcodecs, hd, hq]
  | false =>
    cases hr : c.ready with
    | true =>
      obtain ⟨y, q, hq, rfl⟩ := hdelivers c.drain (Or.inl (Context.send_ready hd hr none)) rfl
      simp [Prod.Lex.toLex_lt_toLex, FrameReader.setCodec, hcodecs, hd, Context.drain]
    | false =>
      obtain ⟨status, r₁, hfail⟩ := Engine.feed_refused avErrToStr hc hd hr none
      cases hfail.symm.trans hcall

theorem iterate_rank {f : Engine.Frame F} (hcall : r.iterate avErrToStr = (some (.ok (some f)), r')) : rank r' < rank r := by
  rcases iterate_cases avErrToStr r with
    ⟨hend, hiter⟩ | ⟨answer, reads, hreads, ⟨packet, hiter⟩ | ⟨status, hiter⟩⟩
  · exact blank_rank hend (hiter.symm.trans hcall)
  · have hleft := congrArg (fun x => x.2.formatCtx.reads) (hiter.symm.trans hcall)
    simp only [Engine.feed_formatCtx, answering] at hleft
    refine Prod.Lex.toLex_lt_toLex.2 (Or.inl ?_)
    simp [← hleft, hreads]
  · cases hiter.symm.trans hcall

/-- a call ends with the iteration that returns, which the ones before it lead up to -/
theorem readNextFrame_last {result : Engine.Result F} (good : FrameReader σ P F → Prop)
    (hstep : ∀ r, good r → good (r.iterate avErrToStr).2) (hgood : good r)
    (h : r.readNextFrame avErrToStr = some (result, r')) :
    ∃ last, good last ∧ rank last ≤ rank r ∧ last.iterate avErrToStr = (some result, r') := by
  generalize hlength : r.formatCtx.reads.length = length
  induction length using Nat.strong_induction_on generalizing r with
  | _ length ih =>
    rw [Engine.readNextFrame_iterate] at h
    have hnext := hstep r hgood
    cases hiter : r.iterate avErrToStr with
    | mk out r₁ =>
      rw [hiter] at h hnext
      cases out with
      | some result' =>
        cases h
        exact ⟨r, hgood, le_rfl, hiter⟩
      | none =>
        dsimp only at h hnext
        have hshort := Engine.iterate_none avErrToStr hiter
        obtain ⟨last, hlast, hrank, hcall⟩ := ih _ (by omega) hnext h rfl
        refine ⟨last, hlast, hrank.trans (le_of_lt ?_), hcall⟩
        exact Prod.Lex.toLex_lt_toLex.2 (Or.inl (by omega))

/-- **A frame less.** A reader that has returned a frame has less to do. -/
theorem rank_frame {f : Engine.Frame F} (h : r.readNextFrame avErrToStr = some (.ok (some f), r')) : rank r' < rank r := by
  obtain ⟨last, -, hrank, hcall⟩ := readNextFrame_last (fun _ => True) (fun _ _ => trivial) trivial h
  exact (iterate_rank hcall).trans_le hrank

theorem Reads.readNextFrame {streams : List (Engine.AVStream σ P F)} {result : Engine.Result F} (hr : Reads streams r)
    (h : r.readNextFrame avErrToStr = some (result, r')) : Reads streams r' := by
  obtain ⟨last, hlast, -, hcall⟩ := readNextFrame_last (Reads streams) (fun _ => Reads.iterate) hr h
  have hnext : Reads streams (last.iterate avErrToStr).2 := hlast.iterate
  rwa [hcall] at hnext

/-- **In range.** A frame has the index of a stream of the input, and its media type. -/
theorem frame_inRange {streams : List (Engine.AVStream σ P F)} {f : Engine.Frame F} (hr : Reads streams r)
    (h : r.readNextFrame avErrToStr = some (.ok (some f), r')) :
    ∃ (i : ℕ) (s : Engine.AVStream σ P F), f.streamIndex = i ∧ streams[i]? = some s ∧ f.mediaType = s.codecType := by
  obtain ⟨last, hlast, -, hcall⟩ := readNextFrame_last (Reads streams) (fun _ => Reads.iterate) hr h
  exact iterate_tag hlast hcall

end Reader

/-! ## The upscaler on one frame -/

section Upscaler

variable {calls : LoopCalls P' π} {n : ℕ} {frame out : Upscale.Frame π}

/-- g is what becomes of f: the same stream and properties, in the same format, of four times the width and height -/
structure Upscaled (f g : Upscale.Frame π) : Prop where
  video : f.mediaType = .video
  streamIndex : g.streamIndex = f.streamIndex
  mediaType : g.mediaType = f.mediaType
  width : g.frame.width = f.frame.width * 4
  height : g.frame.height = f.frame.height * 4
  format : g.frame.format = f.frame.format
  props : g.frame.props = f.frame.props

/-- no call of FFmpeg or LiteRT fails on the n-th frame -/
def LoopCalls.Upscales (calls : LoopCalls P' π) (n : ℕ) : Prop :=
  (calls.conversion n).Succeeds ∧ (calls.model n).Succeeds

theorem upscale_upscaled {ff : Upscale.Ffmpeg π} {lite : Upscale.LiteRt}
    (h : Upscale.upscale ff (Upscale.modelImpl lite) (some frame) = .ok out) : Upscaled frame out := by
  by_cases hfails : frame.mediaType ≠ .video ∨ ¬ ff.Succeeds ∨ ¬ lite.Succeeds
  · obtain ⟨status, hfail⟩ := Upscale.upscale_error hfails
    cases hfail.symm.trans h
  · simp only [not_or, not_not] at hfails
    obtain ⟨hvideo, ⟨hrgb, halloc, hfill, hback⟩, hlite⟩ := hfails
    obtain ⟨input, hinput⟩ := Upscale.toModelIo_ok hrgb frame
    obtain ⟨output, houtput, -⟩ := Upscale.runModel_ok hlite input
    rw [Upscale.upscale, Upscale.validate, if_pos hvideo, bind_ok rfl, bind_ok hinput,
      show (Upscale.modelImpl lite).runModel input = .ok output from houtput, bind_ok rfl, Upscale.fromModelIo,
      Upscale.tempFrame_ok halloc hfill, bind_ok rfl, Upscale.convertColor_ok hback] at h
    obtain rfl := Except.ok.inj h
    exact ⟨hvideo, rfl, rfl, rfl, rfl, rfl, rfl⟩

/-- what is laid over the numbers of the model is inside them for a frame it has room for -/
theorem laid_inside {temp : Upscale.Frame π} (hsmall : frame.frame.width * frame.frame.height ≤ 240 * 240)
    (h : laid calls n frame = .ok temp) : Upscale.PlanesInside temp.frame := by
  unfold laid at h
  by_cases hvideo : frame.mediaType = .video
  · rw [Upscale.validate, if_pos hvideo, bind_ok rfl] at h
    cases hinput : Upscale.toModelIo (calls.conversion n) frame with
    | error status => rw [hinput] at h; cases h
    | ok input =>
      rw [hinput, bind_ok rfl] at h
      by_cases hlite : (calls.model n).Succeeds
      · obtain ⟨output, houtput, hlength⟩ := Upscale.runModel_ok hlite input
        rw [show (Upscale.modelImpl (calls.model n)).runModel input = .ok output from houtput, bind_ok rfl] at h
        by_cases htemp : (calls.conversion n).tempAllocFails = false ∧ (calls.conversion n).fillFails = none
        · rw [Upscale.tempFrame_ok htemp.1 htemp.2] at h
          obtain rfl := Except.ok.inj h
          refine (Upscale.fillArrays_inside _ _ _).2 ?_
          rw [List.length_map, hlength, Nat.mul_mul_mul_comm]
          simp only [Upscale.modelImpl, Upscale.kUpscale, Upscale.outputSize]
          omega
        · obtain ⟨status, hfail⟩ := Upscale.tempFrame_error htemp frame output (Upscale.modelImpl (calls.model n)).scale
          cases hfail.symm.trans h
      · obtain ⟨status, hfail⟩ := Upscale.runModel_error hlite input
        rw [show (Upscale.modelImpl (calls.model n)).runModel input = .error status from hfail] at h
        cases h
  · rw [Upscale.validate, if_neg hvideo] at h
    cases h

/-- **Room.** A frame the model has room for is upscaled or refused. -/
theorem upscaleFrame_isSome (hsmall : frame.frame.width * frame.frame.height ≤ 240 * 240) :
    (upscaleFrame calls n frame).isSome := by
  unfold upscaleFrame
  cases hlaid : laid calls n frame with
  | error status => rfl
  | ok temp =>
    simp only [if_pos (laid_inside hsmall hlaid)]
    rfl

theorem upscaleFrame_upscaled (h : upscaleFrame calls n frame = some (.ok out)) : Upscaled frame out := by
  unfold upscaleFrame at h
  split at h
  · cases h
  · split_ifs at h
    exact upscale_upscaled (Option.some.inj h)

/-- the upscaler lays the frame out and converts it back -/
theorem upscale_laid (calls : LoopCalls P' π) (n : ℕ) (frame : Upscale.Frame π) :
    Upscale.upscale (calls.conversion n) (Upscale.modelImpl (calls.model n)) (some frame) =
      laid calls n frame >>= fun temp => Upscale.convertColor (calls.conversion n) (calls.conversion n).fromRgb temp
        ⟨temp.frame.width, temp.frame.height, frame.frame.format⟩ := by
  unfold Upscale.upscale laid
  by_cases hvideo : frame.mediaType = .video
  · rw [Upscale.validate, if_pos hvideo, bind_ok rfl, bind_ok rfl]
    cases hinput : Upscale.toModelIo (calls.conversion n) frame with
    | error status => rfl
    | ok input =>
      rw [bind_ok rfl, bind_ok rfl]
      cases houtput : (Upscale.modelImpl (calls.model n)).runModel input with
      | error status => rfl
      | ok output => rfl
  · rw [Upscale.validate, if_neg hvideo]
    rfl

theorem upscaleFrame_ok (hsmall : frame.frame.width * frame.frame.height ≤ 240 * 240) (hvideo : frame.mediaType = .video)
    (h : calls.Upscales n) : ∃ out, upscaleFrame calls n frame = some (.ok out) := by
  obtain ⟨out, hout⟩ := Upscale.upscale_ok hvideo h.1 h.2
  unfold upscaleFrame
  cases hlaid : laid calls n frame with
  | error status =>
    rw [upscale_laid, hlaid] at hout
    cases hout
  | ok temp =>
    simp only [if_pos (laid_inside hsmall hlaid)]
    exact ⟨out, congrArg some hout⟩

theorem heldUpscale_value (l : Ledger Kind) :
    (heldUpscale calls n frame l).map (fun x => x.1.map Held.frame) = upscaleFrame calls n frame := by
  have hvalue := upscale_value (calls.conversion n) (calls.model n) frame l
  unfold heldUpscale upscaleFrame
  cases hlaid : laid calls n frame with
  | error status =>
    have hfails := upscale_laid calls n frame
    rw [hlaid] at hfails
    exact congrArg some (hvalue.trans hfails)
  | ok temp =>
    dsimp only
    split_ifs
    · exact congrArg some hvalue
    · rfl

theorem heldUpscale_owes {l : Ledger Kind} {owed : List ℕ} (h : l.Owes owed) :
    ∀ x ∈ heldUpscale calls n frame l, Returns Held.handles x owed := by
  have howes := upscale_owes (calls.conversion n) (calls.model n) h frame
  intro x hx
  unfold heldUpscale at hx
  split at hx
  · obtain rfl := Option.some.inj hx
    exact howes
  · split_ifs at hx
    · obtain rfl := Option.some.inj hx
      exact howes
    · exact (Option.not_mem_none _ hx).elim

end Upscaler

/-! ## The writer stays configured -/

section Writer

variable {ff : Writer.Ffmpeg P'} {F : Type} {w w' : FrameWriter σ' F P'}

theorem drainLoop_encoders {k j : ℤ} {fuel : ℕ} {info : Writer.EncoderInfo σ' F P'} {result : Except Status Unit}
    (h : FrameWriter.drainLoop ff k fuel info w = some (result, w')) (hj : (w.encoders j).isSome) :
    (w'.encoders j).isSome := by
  have hupdate : ∀ (encoders : ℤ → Option (Writer.EncoderInfo σ' F P')) info, (encoders j).isSome →
      (Function.update encoders k (some info) j).isSome := by
    intro encoders info hj
    by_cases hjk : j = k
    · rw [hjk, Function.update_self]
      rfl
    · rwa [Function.update_of_ne hjk]
  induction fuel generalizing info w with
  | zero => cases h
  | succ fuel ih =>
    rw [FrameWriter.drainLoop, FrameWriter.receivePacket] at h
    cases hf : ff.fault w.calls with
    | some code =>
      simp only [hf] at h
      cases h
      exact hj
    | none =>
      simp only [hf] at h
      cases hq : info.encoderCtx.queue with
      | nil =>
        rw [Context.receive_nil hq] at h
        cases hd : info.encoderCtx.draining with
        | true =>
          simp only [hd] at h
          cases h
          exact hupdate _ _ hj
        | false =>
          simp only [hd] at h
          cases h
          exact hupdate _ _ hj
      | cons y q =>
        rw [Context.receive_cons hq] at h
        simp only [FrameWriter.interleavedWriteFrame] at h
        cases hf' : ff.fault (w.calls + 1) with
        | some code =>
          simp only [hf'] at h
          cases h
          exact hupdate _ _ hj
        | none =>
          simp only [hf'] at h
          exact ih h (hupdate _ _ hj)

/-- no call takes an encoder out of the map -/
theorem encodeFrame_encoders {k j : ℤ} {frame : Option F} {result : Except Status Unit}
    (h : w.encodeFrame ff k frame = some (result, w')) (hj : (w.encoders j).isSome) : (w'.encoders j).isSome := by
  rw [FrameWriter.encodeFrame] at h
  cases hinfo : w.encoders k with
  | none =>
    rw [hinfo] at h
    cases h
  | some info =>
    rw [hinfo] at h
    simp only [FrameWriter.sendFrame] at h
    have hupdate : ∀ info, (Function.update w.encoders k (some info) j).isSome := by
      intro info
      by_cases hjk : j = k
      · rw [hjk, Function.update_self]
        rfl
      · rwa [Function.update_of_ne hjk]
    cases hf : ff.fault w.calls with
    | some code =>
      simp only [hf] at h
      cases h
      exact hj
    | none =>
      simp only [hf] at h
      rcases hsend : info.encoderCtx.send frame with ⟨e | _, c⟩
      · rw [hsend] at h
        cases h
        exact hupdate _
      · rw [hsend] at h
        exact drainLoop_encoders h (hupdate _)

/-- `Write` returns a status, and takes no encoder out of the map -/
theorem write_returns (ff : Writer.Ffmpeg P') (w : FrameWriter σ' F P') (f : Writer.Frame F) :
    ∃ status w', w.write ff f = some (status, w') ∧ ∀ j, (w.encoders j).isSome → (w'.encoders j).isSome := by
  unfold FrameWriter.write
  cases hinfo : w.encoders f.streamIndex with
  | none => exact ⟨_, w, rfl, fun _ => id⟩
  | some info =>
    rw [if_neg (by simp)]
    have hsome : (w.encodeFrame ff f.streamIndex (some f.frame)).isSome := Writer.encodeFrame_isSome hinfo _
    obtain ⟨⟨status, w'⟩, hcall⟩ := Option.isSome_iff_exists.1 hsome
    exact ⟨status, w', hcall, fun j hj => encodeFrame_encoders hcall hj⟩

/-- `Flush` returns a status if every index in the map has its encoder -/
theorem flush_returns (ff : Writer.Ffmpeg P') (w : FrameWriter σ' F P') {order : List ℤ}
    (h : ∀ k ∈ order, (w.encoders k).isSome) :
    ∃ status w', w.flush ff order = some (status, w') := by
  have hloop : ∃ status w', FrameWriter.flushEncoders ff order w = some (status, w') := by
    induction order generalizing w with
    | nil => exact ⟨_, _, rfl⟩
    | cons k order ih =>
      obtain ⟨info, hinfo⟩ := Option.isSome_iff_exists.1 (h k List.mem_cons_self)
      have hsome : (w.encodeFrame ff k none).isSome := Writer.encodeFrame_isSome hinfo _
      obtain ⟨⟨status, w₁⟩, hcall⟩ := Option.isSome_iff_exists.1 hsome
      rw [FrameWriter.flushEncoders, hcall]
      cases status with
      | error status => exact ⟨_, _, rfl⟩
      | ok => exact ih w₁ fun j hj => encodeFrame_encoders hcall (h j (List.mem_cons_of_mem _ hj))
  obtain ⟨status, w₁, hcall⟩ := hloop
  rw [FrameWriter.flush, hcall]
  cases status with
  | error status => exact ⟨_, _, rfl⟩
  | ok =>
    simp only
    split
    · exact ⟨_, _, rfl⟩
    · exact ⟨_, _, rfl⟩

end Writer

/-! ## One round -/

section Runs

variable {calls : LoopCalls P' π} {streams : List StreamInfo} {inputs : List (Engine.AVStream σ P (AVFrame π))} {n : ℕ}
  {s s' : LoopState σ P σ' P' π} {owed : List ℕ}

theorem streamAt_isSome {i : ℕ} (h : i < streams.length) : ∃ info, streamAt streams i = some info := by
  refine ⟨streams[i], ?_⟩
  rw [streamAt, if_neg (by omega), Int.toNat_natCast, List.getElem?_eq_getElem h]

/-- the payloads of the two packets are to be released, and this besides -/
def LoopState.Owes (s : LoopState σ P σ' P' π) (owed : List ℕ) : Prop :=
  s.ledger.Owes (s.reader.payload.toList ++ (s.writer.payload.toList ++ owed))

/-- a call in the round of the n-th frame fails -/
inductive RoundFails (calls : LoopCalls P' π) (n : ℕ) (r : FrameReader σ P (AVFrame π)) (w : FrameWriter σ' (AVFrame π) P') :
    Prop
  | alloc {m : ℕ} (h : calls.frameFails n m = true)
  | read {status : Engine.Status} {r' : FrameReader σ P (AVFrame π)}
      (h : r.readNextFrame calls.avErrToStr = some (.error status, r'))
  | upscale {f : Engine.Frame (AVFrame π)} {r' : FrameReader σ P (AVFrame π)} {status : Status}
      (hread : r.readNextFrame calls.avErrToStr = some (.ok (some f), r'))
      (h : upscaleFrame calls n (toUpscale f) = some (.error status))
  | write {f : Engine.Frame (AVFrame π)} {r' : FrameReader σ P (AVFrame π)} {g : Upscale.Frame π} {status : Status}
      {w' : FrameWriter σ' (AVFrame π) P'} (hread : r.readNextFrame calls.avErrToStr = some (.ok (some f), r'))
      (hup : upscaleFrame calls n (toUpscale f) = some (.ok g))
      (h : w.write calls.muxer (toWrite g) = some (.error status, w'))

/-- the end of the file: the writer is flushed -/
theorem enhanceLoop_eof {r : HeldReader σ P (AVFrame π)} {l : Ledger Kind}
    (hcall : s.reader.readNextFrame calls.avErrToStr (calls.frameFails n) s.ledger = some (.ok none, r, l))
    (howes : l.Owes (r.payload.toList ++ (s.writer.payload.toList ++ owed)))
    (hw : ∀ k ∈ calls.order, (s.writer.writer.encoders k).isSome) :
    ∃ status s', s.writer.writer.flush calls.muxer calls.order = some (status, s'.writer.writer) ∧ s'.Owes owed ∧
      ∀ fuel, enhanceLoop calls streams (fuel + 1) n s = some (.returned status, s') := by
  obtain ⟨status, w', hflush⟩ := flush_returns calls.muxer s.writer.writer hw
  obtain ⟨hvalue, hleft⟩ : Writes (s.writer.writer.flush calls.muxer calls.order) _ (s.writer.flush calls.muxer _ l) :=
    flush_writes howes.swap calls.order
  rw [hflush] at hvalue
  obtain ⟨⟨status', w₁, l₁⟩, hrun, heq⟩ := Option.map_eq_some_iff.1 hvalue.symm
  cases heq
  refine ⟨status', ⟨r, w₁, l₁⟩, hflush, (hleft _ hrun).swap, ?_⟩
  intro fuel
  rw [enhanceLoop]
  simp only [hcall, hrun]

/-- a frame that is read: a later call fails, or there is no room for it, or it is written, and it is destroyed -/
theorem enhanceLoop_frame {r : HeldReader σ P (AVFrame π)} {l : Ledger Kind} {f : Held (Engine.Frame (AVFrame π))}
    (hcall : s.reader.readNextFrame calls.avErrToStr (calls.frameFails n) s.ledger = some (.ok (some f), r, l))
    (howes : l.Owes (f.handles ++ (r.payload.toList ++ (s.writer.payload.toList ++ owed))))
    (hread : s.reader.reader.readNextFrame calls.avErrToStr = some (.ok (some f.frame), r.reader))
    (hinfo : ∃ info, streamAt streams f.frame.streamIndex = some info) :
    (∃ status s', RoundFails calls n s.reader.reader s.writer.writer ∧ s'.Owes owed ∧
      ∀ fuel, enhanceLoop calls streams (fuel + 1) n s = some (.returned (.error status), s')) ∨
    (∃ s', upscaleFrame calls n (toUpscale f.frame) = none ∧
      ∀ fuel, enhanceLoop calls streams (fuel + 1) n s = some (.undefined, s')) ∨
    (∃ g s', upscaleFrame calls n (toUpscale f.frame) = some (.ok g) ∧
      s.writer.writer.write calls.muxer (toWrite g) = some (.ok (), s'.writer.writer) ∧ s'.reader = r ∧ s'.Owes owed ∧
      ∀ fuel, enhanceLoop calls streams (fuel + 1) n s = enhanceLoop calls streams fuel (n + 1) s') := by
  obtain ⟨info, hinfo⟩ := hinfo
  have hup : (heldUpscale calls n (toUpscale f.frame) l).map (fun x => x.1.map Held.frame) =
      upscaleFrame calls n (toUpscale f.frame) := heldUpscale_value l
  have hupOwes : ∀ x ∈ heldUpscale calls n (toUpscale f.frame) l, Returns Held.handles x _ := heldUpscale_owes howes
  cases hupscaled : heldUpscale calls n (toUpscale f.frame) l with
  | none =>
    rw [hupscaled] at hup
    refine Or.inr (Or.inl ⟨⟨r, s.writer, l⟩, hup.symm, ?_⟩)
    intro fuel
    rw [enhanceLoop]
    simp only [hcall, hinfo, hupscaled]
  | some out =>
    rw [hupscaled] at hup
    have hleft := hupOwes out hupscaled
    obtain ⟨_ | g, l₁⟩ := out
    · rename_i status
      refine Or.inl ⟨status, ⟨r, s.writer, f.destroy l₁⟩, .upscale hread hup.symm, owes_destroy hleft, ?_⟩
      intro fuel
      rw [enhanceLoop]
      simp only [hcall, hinfo, hupscaled]
    · obtain ⟨status, w', hwrite, -⟩ := write_returns calls.muxer s.writer.writer (toWrite g.frame)
      -- the upscaled frame goes with the write, the one that was read with the round
      have hheld : l₁.Owes ((g.map toWrite).handles ++ (s.writer.payload.toList ++
          (f.handles ++ (r.payload.toList ++ owed)))) := by
        refine Owes.perm hleft (List.Perm.append_left _ ?_)
        simp only [List.perm_iff_count, List.count_append]
        omega
      obtain ⟨hvalue, hwritten⟩ : Writes (s.writer.writer.write calls.muxer (toWrite g.frame)) _
          (s.writer.write calls.muxer (g.map toWrite) l₁) := write_writes hheld
      rw [hwrite] at hvalue
      obtain ⟨⟨status', w₁, l₂⟩, hrun, heq⟩ := Option.map_eq_some_iff.1 hvalue.symm
      have hdone : LoopState.Owes ⟨r, w₁, f.destroy l₂⟩ owed :=
        (owes_destroy (Owes.swap (hwritten _ hrun))).swap
      cases heq
      cases status' with
      | error status =>
        refine Or.inl ⟨status, ⟨r, w₁, f.destroy l₂⟩, .write hread hup.symm hwrite, hdone, ?_⟩
        intro fuel
        rw [enhanceLoop]
        simp only [hcall, hinfo, hupscaled, hrun]
      | ok =>
        refine Or.inr (Or.inr ⟨g.frame, ⟨r, w₁, f.destroy l₂⟩, hup.symm, hwrite, rfl, hdone, ?_⟩)
        intro fuel
        rw [enhanceLoop]
        simp only [hcall, hinfo, hupscaled, hrun]

/-- **One round.** The writer is flushed, or a call fails, or there is no room for the frame, or the frame is written and
the reader has less to do. On every return all that the round allocated has been released. -/
theorem enhanceLoop_step (hr : Reads inputs s.reader.reader) (hlength : streams.length = inputs.length)
    (hw : ∀ k ∈ calls.order, (s.writer.writer.encoders k).isSome) (hs : s.Owes owed) (n : ℕ) :
    (∃ r' status s', s.reader.reader.readNextFrame calls.avErrToStr = some (.ok none, r') ∧
      s.writer.writer.flush calls.muxer calls.order = some (status, s'.writer.writer) ∧ s'.Owes owed ∧
      ∀ fuel, enhanceLoop calls streams (fuel + 1) n s = some (.returned status, s')) ∨
    (∃ status s', RoundFails calls n s.reader.reader s.writer.writer ∧ s'.Owes owed ∧
      ∀ fuel, enhanceLoop calls streams (fuel + 1) n s = some (.returned (.error status), s')) ∨
    (∃ f r' s', s.reader.reader.readNextFrame calls.avErrToStr = some (.ok (some f), r') ∧
      upscaleFrame calls n (toUpscale f) = none ∧ 240 * 240 < f.frame.width * f.frame.height ∧
      ∀ fuel, enhanceLoop calls streams (fuel + 1) n s = some (.undefined, s')) ∨
    (∃ f g s', s.reader.reader.readNextFrame calls.avErrToStr = some (.ok (some f), s'.reader.reader) ∧
      upscaleFrame calls n (toUpscale f) = some (.ok g) ∧
      s.writer.writer.write calls.muxer (toWrite g) = some (.ok (), s'.writer.writer) ∧ s'.Owes owed ∧
      (∀ fuel, enhanceLoop calls streams (fuel + 1) n s = enhanceLoop calls streams fuel (n + 1) s') ∧
      Reads inputs s'.reader.reader ∧ (∀ k ∈ calls.order, (s'.writer.writer.encoders k).isSome) ∧
      rank s'.reader.reader < rank s.reader.reader) := by
  obtain ⟨fetched, r, l, hcall, howes, hvalue⟩ :
      ∃ fetched r l, s.reader.readNextFrame calls.avErrToStr (calls.frameFails n) s.ledger = some (fetched, r, l) ∧
        l.Owes (Fetched.handles fetched ++ (r.payload.toList ++ (s.writer.payload.toList ++ owed))) ∧
        (s.reader.reader.readNextFrame calls.avErrToStr = some (Fetched.value fetched, r.reader) ∨
          (∃ m, calls.frameFails n m = true) ∧ ∃ status, fetched = .error status) :=
    readNextFrame_fetches hs (calls.frameFails n)
  rcases fetched with status | _ | f
  · refine Or.inr (Or.inl ⟨⟨.internal, status.message⟩, ⟨r, s.writer, l⟩, ?_, howes, fun fuel => ?_⟩)
    · rcases hvalue with hread | ⟨⟨m, hfails⟩, -⟩
      · exact .read hread
      · exact .alloc hfails
    · rw [enhanceLoop]
      simp only [hcall]
  · have hread : s.reader.reader.readNextFrame calls.avErrToStr = some (.ok none, r.reader) := by
      rcases hvalue with hread | ⟨-, status, hstatus⟩
      · exact hread
      · cases hstatus
    obtain ⟨status, s', hflush, hleft, hend⟩ := enhanceLoop_eof hcall howes hw
    exact Or.inl ⟨r.reader, status, s', hread, hflush, hleft, hend⟩
  · have hread : s.reader.reader.readNextFrame calls.avErrToStr = some (.ok (some f.frame), r.reader) := by
      rcases hvalue with hread | ⟨-, status, hstatus⟩
      · exact hread
      · cases hstatus
    obtain ⟨i, info, hindex, hget, -⟩ := frame_inRange hr hread
    have hinfo : ∃ info, streamAt streams f.frame.streamIndex = some info := by
      rw [hindex]
      refine streamAt_isSome ?_
      rw [hlength]
      exact (List.getElem?_eq_some_iff.1 hget).1
    rcases enhanceLoop_frame hcall howes hread hinfo with
      ⟨status, s', hfails, hleft, hend⟩ | ⟨s', hnone, hend⟩ | ⟨g, s', hup, hwrite, rfl, hleft, hnext⟩
    · exact Or.inr (Or.inl ⟨status, s', hfails, hleft, hend⟩)
    · refine Or.inr (Or.inr (Or.inl ⟨f.frame, r.reader, s', hread, hnone, ?_, hend⟩))
      by_contra hroom
      have hsome : (upscaleFrame calls n (toUpscale f.frame)).isSome := upscaleFrame_isSome (not_lt.1 hroom)
      rw [hnone] at hsome
      cases hsome
    · obtain ⟨status, w', hcalled, hkeeps⟩ := write_returns calls.muxer s.writer.writer (toWrite g)
      cases hcalled.symm.trans hwrite
      exact Or.inr (Or.inr (Or.inr ⟨f.frame, g, s', hread, hup, hwrite, hleft, hnext, hr.readNextFrame hread,
        fun k hk => hkeeps k (hw k hk), rank_frame hread⟩))

end Runs

/-! ## Runs -/

/-- a frame that calls of `ReadNextFrame` come to -/
inductive CanRead (avErrToStr : Refusal → String) : FrameReader σ P (AVFrame π) → Engine.Frame (AVFrame π) → Prop
  | now {r r' : FrameReader σ P (AVFrame π)} {f : Engine.Frame (AVFrame π)}
      (h : r.readNextFrame avErrToStr = some (.ok (some f), r')) : CanRead avErrToStr r f
  | later {r r' : FrameReader σ P (AVFrame π)} {f f' : Engine.Frame (AVFrame π)}
      (h : r.readNextFrame avErrToStr = some (.ok (some f'), r')) (rest : CanRead avErrToStr r' f) :
      CanRead avErrToStr r f

/-- a reader that comes to the end of the file can read the frames it returns then, and no others -/
theorem canRead_mem {avErrToStr : Refusal → String} {r : FrameReader σ P (AVFrame π)}
    {fs : List (Engine.Frame (AVFrame π))} {f : Engine.Frame (AVFrame π)} (hreads : ReadsAll avErrToStr r fs)
    (h : CanRead avErrToStr r f) : f ∈ fs := by
  induction h generalizing fs with
  | now h =>
    cases hreads with
    | eof heof => cases heof.symm.trans h
    | frame hread _ =>
      cases hread.symm.trans h
      exact List.mem_cons_self
  | later h _ ih =>
    cases hreads with
    | eof heof => cases heof.symm.trans h
    | frame hread hrest =>
      cases hread.symm.trans h
      exact List.mem_cons_of_mem _ (ih hrest)

/-- the upscaler on one frame after another, from the n-th on, none of them refused -/
inductive UpscalesAll (calls : LoopCalls P' π) : ℕ → List (Engine.Frame (AVFrame π)) → List (Upscale.Frame π) → Prop
  | nil (n : ℕ) : UpscalesAll calls n [] []
  | cons {n : ℕ} {f : Engine.Frame (AVFrame π)} {g : Upscale.Frame π} {fs : List (Engine.Frame (AVFrame π))}
      {gs : List (Upscale.Frame π)} (h : upscaleFrame calls n (toUpscale f) = some (.ok g))
      (rest : UpscalesAll calls (n + 1) fs gs) : UpscalesAll calls n (f :: fs) (g :: gs)

section Loops

variable {calls : LoopCalls P' π} {streams : List StreamInfo} {inputs : List (Engine.AVStream σ P (AVFrame π))} {n : ℕ}
  {s s' : LoopState σ P σ' P' π} {owed : List ℕ}

/-- **The loop ends**, by induction on what the reader has to do. -/
theorem enhanceLoop_isSome (hr : Reads inputs s.reader.reader) (hlength : streams.length = inputs.length)
    (hw : ∀ k ∈ calls.order, (s.writer.writer.encoders k).isSome) (hs : s.Owes owed) (n : ℕ) :
    ∃ fuel, (enhanceLoop calls streams fuel n s).isSome := by
  generalize hrank : rank s.reader.reader = m
  induction m using WellFoundedLT.induction generalizing n s with
  | ind m ih =>
    subst hrank
    rcases enhanceLoop_step hr hlength hw hs n with ⟨r', status, s', -, -, -, hend⟩ | ⟨status, s', -, -, hend⟩ |
      ⟨f, r', s', -, -, -, hend⟩ | ⟨f, g, s', -, -, -, hs', hnext, hr', hw', hless⟩
    · exact ⟨1, by rw [hend 0]; rfl⟩
    · exact ⟨1, by rw [hend 0]; rfl⟩
    · exact ⟨1, by rw [hend 0]; rfl⟩
    · obtain ⟨fuel, hsome⟩ := ih _ hless hr' hw' hs' (n + 1) rfl
      exact ⟨fuel + 1, by rwa [hnext]⟩

/-- **It returns a status** if the model has room for every frame. -/
theorem enhanceLoop_returns (hr : Reads inputs s.reader.reader) (hlength : streams.length = inputs.length)
    (hw : ∀ k ∈ calls.order, (s.writer.writer.encoders k).isSome) (hs : s.Owes owed)
    (hroom : ∀ f, CanRead calls.avErrToStr s.reader.reader f → f.frame.width * f.frame.height ≤ 240 * 240) {fuel : ℕ}
    {exit : Exit} (h : enhanceLoop calls streams fuel n s = some (exit, s')) : ∃ status, exit = .returned status := by
  induction fuel generalizing n s with
  | zero => cases h
  | succ fuel ih =>
    rcases enhanceLoop_step hr hlength hw hs n with ⟨r', status, s₁, -, -, -, hend⟩ | ⟨status, s₁, -, -, hend⟩ |
      ⟨f, r', s₁, hread, -, hwide, -⟩ | ⟨f, g, s₁, hread, -, -, hs', hnext, hr', hw', -⟩
    · rw [hend] at h
      cases h
      exact ⟨_, rfl⟩
    · rw [hend] at h
      cases h
      exact ⟨_, rfl⟩
    · exact absurd (hroom f (.now hread)) (not_le.2 hwide)
    · rw [hnext] at h
      exact ih hr' hw' hs' (fun f' hf' => hroom f' (.later hread hf')) h

/-- **Nothing is kept.** Whatever it returns, all that the loop allocated has been released, the payloads of the two packets
apart. -/
theorem enhanceLoop_owes (hr : Reads inputs s.reader.reader) (hlength : streams.length = inputs.length)
    (hw : ∀ k ∈ calls.order, (s.writer.writer.encoders k).isSome) (hs : s.Owes owed) {fuel : ℕ}
    {status : Except Status Unit} (h : enhanceLoop calls streams fuel n s = some (.returned status, s')) : s'.Owes owed := by
  induction fuel generalizing n s with
  | zero => cases h
  | succ fuel ih =>
    rcases enhanceLoop_step hr hlength hw hs n with ⟨r', status', s₁, -, -, hleft, hend⟩ | ⟨status', s₁, -, hleft, hend⟩ |
      ⟨f, r', s₁, -, -, -, hend⟩ | ⟨f, g, s₁, -, -, -, hs', hnext, hr', hw', -⟩
    · rw [hend] at h
      cases h
      exact hleft
    · rw [hend] at h
      cases h
      exact hleft
    · rw [hend] at h
      cases h
    · rw [hnext] at h
      exact ih hr' hw' hs' h

/-- **Stage by stage.** A loop that returns OK has read to the end, upscaled all frames, written them all and flushed. -/
theorem enhanceLoop_ok (hr : Reads inputs s.reader.reader) (hlength : streams.length = inputs.length)
    (hw : ∀ k ∈ calls.order, (s.writer.writer.encoders k).isSome) (hs : s.Owes owed) {fuel : ℕ}
    (h : enhanceLoop calls streams fuel n s = some (.returned (.ok ()), s')) :
    ∃ fs gs w₁, ReadsAll calls.avErrToStr s.reader.reader fs ∧ UpscalesAll calls n fs gs ∧
      WritesOk calls.muxer s.writer.writer (gs.map toWrite) w₁ ∧
      w₁.flush calls.muxer calls.order = some (.ok (), s'.writer.writer) := by
  induction fuel generalizing n s with
  | zero => cases h
  | succ fuel ih =>
    rcases enhanceLoop_step hr hlength hw hs n with ⟨r', status, s₁, hread, hflush, -, hend⟩ | ⟨status, s₁, -, -, hend⟩ |
      ⟨f, r', s₁, -, -, -, hend⟩ | ⟨f, g, s₁, hread, hup, hwrite, hs', hnext, hr', hw', -⟩
    · rw [hend] at h
      cases h
      exact ⟨[], [], s.writer.writer, .eof hread, .nil n, .nil _, hflush⟩
    · rw [hend] at h
      cases h
    · rw [hend] at h
      cases h
    · rw [hnext] at h
      obtain ⟨fs, gs, w₂, hreads, hups, hwrites, hflush⟩ := ih hr' hw' hs' h
      exact ⟨f :: fs, g :: gs, w₂, .frame hread hreads, .cons hup hups, .cons hwrite hwrites, hflush⟩

/-- **Frame by frame.** If every stage goes through to its end, and every frame can be allocated, the loop returns OK. -/
theorem enhanceLoop_of_ok (hr : Reads inputs s.reader.reader) (hlength : streams.length = inputs.length)
    (hw : ∀ k ∈ calls.order, (s.writer.writer.encoders k).isSome) (hs : s.Owes owed)
    (halloc : ∀ n m, calls.frameFails n m = false) {fs : List (Engine.Frame (AVFrame π))} {gs : List (Upscale.Frame π)}
    {w₁ w' : FrameWriter σ' (AVFrame π) P'} (hreads : ReadsAll calls.avErrToStr s.reader.reader fs)
    (hups : UpscalesAll calls n fs gs) (hwrites : WritesOk calls.muxer s.writer.writer (gs.map toWrite) w₁)
    (hflush : w₁.flush calls.muxer calls.order = some (.ok (), w')) :
    ∃ fuel s', enhanceLoop calls streams fuel n s = some (.returned (.ok ()), s') ∧ s'.writer.writer = w' := by
  induction fs generalizing n s gs with
  | nil =>
    cases hups
    cases hwrites
    cases hreads with
    | eof heof =>
      rcases enhanceLoop_step hr hlength hw hs n with ⟨r', status, s₁, -, hcall, -, hend⟩ | ⟨status, s₁, hfails, -⟩ |
        ⟨f, r', s₁, hread, -⟩ | ⟨f, g, s₁, hread, -⟩
      · have hsame := Option.some.inj (hcall.symm.trans hflush)
        obtain ⟨rfl, hwriter⟩ := Prod.mk.inj hsame
        exact ⟨1, s₁, hend 0, hwriter⟩
      · cases hfails with
        | alloc h => exact absurd (h.symm.trans (halloc _ _)) (by decide)
        | read h => cases h.symm.trans heof
        | upscale h => cases h.symm.trans heof
        | write h => cases h.symm.trans heof
      · cases hread.symm.trans heof
      · cases hread.symm.trans heof
  | cons f fs ih =>
    cases hreads with
    | frame hread hreads =>
      cases hups with
      | cons hup hups =>
        cases hwrites with
        | cons hwrite hwrites =>
          rcases enhanceLoop_step hr hlength hw hs n with ⟨r', status, s₁, heof, -⟩ | ⟨status, s₁, hfails, -⟩ |
            ⟨f', r', s₁, hread', hnone, -⟩ | ⟨f', g', s₁, hread', hup', hwrite', hs', hnext, hr', hw', -⟩
          · cases heof.symm.trans hread
          · cases hfails with
            | alloc h => exact absurd (h.symm.trans (halloc _ _)) (by decide)
            | read h => cases h.symm.trans hread
            | upscale h h' =>
              cases h.symm.trans hread
              cases h'.symm.trans hup
            | write h h' h'' =>
              cases h.symm.trans hread
              cases h'.symm.trans hup
              cases h''.symm.trans hwrite
          · cases hread'.symm.trans hread
            cases hnone.symm.trans hup
          · cases hread'.symm.trans hread
            cases hup'.symm.trans hup
            cases hwrite'.symm.trans hwrite
            obtain ⟨fuel, s', hrun, hwriter⟩ := ih hr' hw' hs' hreads hups hwrites
            exact ⟨fuel + 1, s', (hnext fuel).trans hrun, hwriter⟩

end Loops

end Viduce.Enhance
