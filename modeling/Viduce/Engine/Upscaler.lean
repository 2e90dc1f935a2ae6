/-
The upscaler of the engine (`upscaler.cc`, `frame.cc`) and its model (`model_impl.cc`). A frame is converted to planes,
the planes to a vector of numbers; the model makes another vector of it, which is laid out as planes of a larger frame
and converted back. The model has tensors of fixed sizes, and the size of the frame goes around it.

- `fillArrays_inside`: three planes fit a buffer exactly when it holds all their bytes.
- `runModel_ok`: what the model returns has the size of its output tensor, whatever it was given.
- `upscale_inside_iff`: the upscaler fails, or the planes are inside the vector, exactly when the frame has at most as
  many pixels as the model takes, or it is no video frame, or a call of FFmpeg or LiteRT fails.
- `wide_frame_outside`: one more column.

Numbers are exact. FFmpeg and LiteRT may fail in every call; the one whose failure the code drops is `Write`.
-/
import Mathlib.Tactic
import Viduce.Core.Absl

namespace Viduce.Upscale

open Viduce.Absl

variable {π : Type}

/-! ## Frames -/

inductive AVMediaType where
  | video
  | other
deriving DecidableEq, Repr

inductive AVPixelFormat where
  | none
  | gbr24p
  | other (format : ℕ)
deriving DecidableEq, Repr

/-- a plane: where its data pointer points to, and its linesize -/
structure Plane where
  buffer : List UInt8
  start : ℕ
  linesize : ℕ

/-- byte i from the data pointer; outside the buffer it may be anything -/
def Plane.byte (plane : Plane) (i : ℕ) : UInt8 := plane.buffer.getD (plane.start + i) 0

/-- every byte of a plane of this width and height is in the buffer -/
def Plane.Inside (plane : Plane) (width height : ℕ) : Prop :=
  ∀ y < height, ∀ x < width, plane.start + (x + y * plane.linesize) < plane.buffer.length

structure AVFrame (π : Type) where
  width : ℕ
  height : ℕ
  format : AVPixelFormat
  /-- `data` and `linesize` -/
  data : ℕ → Plane
  /-- what `av_frame_copy_props` copies -/
  props : π

structure Frame (π : Type) where
  streamIndex : ℤ
  mediaType : AVMediaType
  frame : AVFrame π

def noPlanes : ℕ → Plane := fun _ => ⟨[], 0, 0⟩

/-- `Frame::Clone` -/
def Frame.clone (allocFails : Bool) (frame : Frame π) : Except Status (Frame π) :=
  if allocFails then .error ⟨.internal, "Failed to allocate av_frame"⟩
  else .ok ⟨frame.streamIndex, frame.mediaType, ⟨0, 0, .none, noPlanes, frame.frame.props⟩⟩

/-! ## FFmpeg and LiteRT -/

structure ConversionSpec where
  width : ℕ
  height : ℕ
  pixFmt : AVPixelFormat

/-- which calls of a colour conversion fail -/
structure ConversionFaults where
  contextFails : Bool
  allocFails : Bool
  scaleFails : Option ℤ

structure Ffmpeg (π : Type) where
  toRgb : ConversionFaults
  tempAllocFails : Bool
  fillFails : Option ℤ
  fromRgb : ConversionFaults
  /-- the planes that `sws_scale_frame` makes -/
  scaleFrame : AVFrame π → ConversionSpec → ℕ → Plane
  avErrToStr : ℤ → String

/-- floats of the input tensor, 3x240x240 -/
def inputLength : ℕ := 3 * 240 * 240

/-- bytes of the output tensor, 3x960x960 floats -/
def outputSize : ℕ := 3 * 960 * 960 * 4

structure LiteRt where
  createInputFails : Option Status
  writeFails : Bool
  createOutputFails : Option Status
  runFails : Option Status
  sizeFails : Option Status
  readFails : Option Status
  /-- the input tensor as it is created -/
  fresh : List ℚ
  /-- the output tensor, from the input tensor -/
  run : List ℚ → {output : List ℚ // output.length = outputSize / 4}

/-- `LITERT_RETURN_IF_ERROR` -/
def returnIfError : Option Status → Except Status Unit
  | some status => .error status
  | none => .ok ()

/-! ## The model -/

structure ModelIo where
  data : List ℚ

structure Model where
  /-- `getInfo().scale` -/
  scale : ℕ
  runModel : ModelIo → Except Status ModelIo

def kUpscale : ℕ := 4

/-- `ModelImpl::RunModel` -/
def LiteRt.runModel (lite : LiteRt) (input : ModelIo) : Except Status ModelIo := do
  returnIfError lite.createInputFails
  -- a write that fails has no effect, and its error is dropped
  let written := if input.data.length = inputLength ∧ lite.writeFails = false then input.data else lite.fresh
  returnIfError lite.createOutputFails
  returnIfError lite.runFails
  returnIfError lite.sizeFails
  let outputLength := outputSize / 4
  returnIfError lite.readFails
  let output := (lite.run written).val.take outputLength
  pure ⟨output.map fun val => min (max val 0) 1⟩

def modelImpl (lite : LiteRt) : Model := ⟨kUpscale, lite.runModel⟩

/-! ## The upscaler -/

/-- `norm_scale_` -/
def normScale : ℚ := 255

section Calls

variable (ff : Ffmpeg π)

/-- `Validate` -/
def validate : Option (Frame π) → Except Status (Frame π)
  | none => .error ⟨.invalidArgument, "Input frame is null"⟩
  | some frame =>
    if frame.mediaType = .video then .ok frame else .error ⟨.invalidArgument, "Input frame is not a video frame"⟩

/-- `ConvertColor` -/
def convertColor (faults : ConversionFaults) (input : Frame π) (spec : ConversionSpec) : Except Status (Frame π) := do
  if faults.contextFails then throw ⟨.internal, "Failed to create SwsContext"⟩
  let dst ← input.clone faults.allocFails
  match faults.scaleFails with
  | some res => throw ⟨.internal, "Failed to scale frame with error: " ++ ff.avErrToStr res⟩
  | none =>
    pure { dst with
      frame := ⟨spec.width, spec.height, spec.pixFmt, ff.scaleFrame input.frame spec, dst.frame.props⟩ }

/-- the loops of `ToModelIo` -/
def normalize (frame : AVFrame π) : List ℚ :=
  (List.range 3).flatMap fun ch => (List.range frame.height).flatMap fun h => (List.range frame.width).map fun w =>
    ((frame.data ch).byte (w + h * (frame.data ch).linesize)).toNat / normScale

/-- `ToModelIo` -/
def toModelIo (frame : Frame π) : Except Status ModelIo := do
  let rgb ← convertColor ff ff.toRgb frame ⟨frame.frame.width, frame.frame.height, .gbr24p⟩
  pure ⟨normalize rgb.frame⟩

/-- a number of the model as a byte -/
def denormalize (val : ℚ) : UInt8 := UInt8.ofNat ⌊val * normScale⌋.toNat

/-- `av_image_fill_arrays` for three planes of bytes, with align 1 -/
def fillArrays (buffer : List UInt8) (width height : ℕ) : ℕ → Plane := fun ch => ⟨buffer, ch * (width * height), width⟩

/-- `FromModelIo`, up to its temporary frame -/
def tempFrame (input : Frame π) (output : ModelIo) (outScale : ℕ) : Except Status (Frame π) := do
  let denormalized := output.data.map denormalize
  let temp ← input.clone ff.tempAllocFails
  let width := input.frame.width * outScale
  let height := input.frame.height * outScale
  match ff.fillFails with
  | some size => throw ⟨.internal, "Failed to create temp output RGB Frame: " ++ ff.avErrToStr size⟩
  | none => pure { temp with frame := ⟨width, height, .gbr24p, fillArrays denormalized width height, temp.frame.props⟩ }

/-- `FromModelIo` -/
def fromModelIo (input : Frame π) (output : ModelIo) (outScale : ℕ) : Except Status (Frame π) := do
  let temp ← tempFrame ff input output outScale
  convertColor ff ff.fromRgb temp ⟨temp.frame.width, temp.frame.height, input.frame.format⟩

/-- `Upscale` -/
def upscale (model : Model) (inputFrame : Option (Frame π)) : Except Status (Frame π) := do
  let frame ← validate inputFrame
  let input ← toModelIo ff frame
  let output ← model.runModel input
  fromModelIo ff frame output model.scale

end Calls

/-! ## Calls that succeed -/

def ConversionFaults.Succeeds (faults : ConversionFaults) : Prop :=
  faults.contextFails = false ∧ faults.allocFails = false ∧ faults.scaleFails = none

/-- no call of FFmpeg fails -/
def Ffmpeg.Succeeds (ff : Ffmpeg π) : Prop :=
  ff.toRgb.Succeeds ∧ ff.tempAllocFails = false ∧ ff.fillFails = none ∧ ff.fromRgb.Succeeds

/-- no call of LiteRT fails, `Write` apart -/
def LiteRt.Succeeds (lite : LiteRt) : Prop :=
  lite.createInputFails = none ∧ lite.createOutputFails = none ∧ lite.runFails = none ∧ lite.sizeFails = none ∧
    lite.readFails = none

section Outcomes

variable {ff : Ffmpeg π} {lite : LiteRt}

theorem convertColor_ok {faults : ConversionFaults} (h : faults.Succeeds) (input : Frame π) (spec : ConversionSpec) :
    convertColor ff faults input spec = .ok ⟨input.streamIndex, input.mediaType,
      ⟨spec.width, spec.height, spec.pixFmt, ff.scaleFrame input.frame spec, input.frame.props⟩⟩ := by
  obtain ⟨hcontext, halloc, hscale⟩ := h
  rw [convertColor, hcontext, halloc, hscale]
  rfl

theorem convertColor_error {faults : ConversionFaults} (h : ¬ faults.Succeeds) (input : Frame π) (spec : ConversionSpec) :
    ∃ status, convertColor ff faults input spec = .error status := by
  rw [convertColor]
  cases hcontext : faults.contextFails with
  | true => exact ⟨_, rfl⟩
  | false =>
    cases halloc : faults.allocFails with
    | true => exact ⟨_, rfl⟩
    | false =>
      cases hscale : faults.scaleFails with
      | some res => exact ⟨_, rfl⟩
      | none => exact absurd ⟨hcontext, halloc, hscale⟩ h

/-- **The size of the output.** It is that of the output tensor, whatever the input. -/
theorem runModel_ok (h : lite.Succeeds) (input : ModelIo) :
    ∃ output, lite.runModel input = .ok output ∧ output.data.length = outputSize / 4 := by
  obtain ⟨hin, hout, hrun, hsize, hread⟩ := h
  rw [LiteRt.runModel, hin, hout, hrun, hsize, hread]
  refine ⟨_, rfl, ?_⟩
  rw [List.length_map, List.length_take, (lite.run _).property, Nat.min_self]

theorem runModel_error (h : ¬ lite.Succeeds) (input : ModelIo) : ∃ status, lite.runModel input = .error status := by
  rw [LiteRt.runModel]
  cases hin : lite.createInputFails with
  | some status => exact ⟨status, rfl⟩
  | none =>
    cases hout : lite.createOutputFails with
    | some status => exact ⟨status, rfl⟩
    | none =>
      cases hrun : lite.runFails with
      | some status => exact ⟨status, rfl⟩
      | none =>
        cases hsize : lite.sizeFails with
        | some status => exact ⟨status, rfl⟩
        | none =>
          cases hread : lite.readFails with
          | some status => exact ⟨status, rfl⟩
          | none => exact absurd ⟨hin, hout, hrun, hsize, hread⟩ h

/-- the temporary frame: the numbers as bytes, laid out for the larger size -/
theorem tempFrame_ok (halloc : ff.tempAllocFails = false) (hfill : ff.fillFails = none) (input : Frame π) (output : ModelIo)
    (outScale : ℕ) :
    tempFrame ff input output outScale = .ok ⟨input.streamIndex, input.mediaType,
      ⟨input.frame.width * outScale, input.frame.height * outScale, .gbr24p,
        fillArrays (output.data.map denormalize) (input.frame.width * outScale) (input.frame.height * outScale),
        input.frame.props⟩⟩ := by
  rw [tempFrame, halloc, hfill]
  rfl

theorem tempFrame_error (h : ¬ (ff.tempAllocFails = false ∧ ff.fillFails = none)) (input : Frame π) (output : ModelIo)
    (outScale : ℕ) : ∃ status, tempFrame ff input output outScale = .error status := by
  rw [tempFrame]
  cases halloc : ff.tempAllocFails with
  | true => exact ⟨_, rfl⟩
  | false =>
    cases hfill : ff.fillFails with
    | some size => exact ⟨_, rfl⟩
    | none => exact absurd ⟨halloc, hfill⟩ h

theorem toModelIo_ok (h : ff.toRgb.Succeeds) (frame : Frame π) : ∃ input, toModelIo ff frame = .ok input :=
  ⟨_, bind_ok (convertColor_ok h _ _) _⟩

/-- **Failing.** The upscaler fails on what is no video frame, and when a call of FFmpeg or LiteRT fails, `Write` apart.
-/
theorem upscale_error {frame : Frame π} (h : frame.mediaType ≠ .video ∨ ¬ ff.Succeeds ∨ ¬ lite.Succeeds) :
    ∃ status, upscale ff (modelImpl lite) (some frame) = .error status := by
  rw [upscale]
  by_cases hvideo : frame.mediaType = .video
  · rw [validate, if_pos hvideo, bind_ok rfl]
    by_cases hrgb : ff.toRgb.Succeeds
    · obtain ⟨input, hinput⟩ := toModelIo_ok hrgb frame
      rw [bind_ok hinput]
      by_cases hlite : lite.Succeeds
      · obtain ⟨output, houtput, -⟩ := runModel_ok hlite input
        rw [show (modelImpl lite).runModel input = .ok output from houtput, bind_ok rfl, fromModelIo]
        by_cases htemp : ff.tempAllocFails = false ∧ ff.fillFails = none
        · rw [tempFrame_ok htemp.1 htemp.2, bind_ok rfl]
          apply convertColor_error
          intro hback
          rcases h with h | h | h
          · exact h hvideo
          · exact h ⟨hrgb, htemp.1, htemp.2, hback⟩
          · exact h hlite
        · exact bind_error (tempFrame_error htemp ..) _
      · exact bind_error (runModel_error hlite input) _
    · exact bind_error (bind_error (convertColor_error hrgb ..) _) _
  · rw [validate, if_neg hvideo]
    exact bind_error ⟨_, rfl⟩ _

theorem upscale_ok {frame : Frame π} (hvideo : frame.mediaType = .video) (hff : ff.Succeeds) (hlite : lite.Succeeds) :
    ∃ out, upscale ff (modelImpl lite) (some frame) = .ok out := by
  obtain ⟨hrgb, halloc, hfill, hback⟩ := hff
  obtain ⟨input, hinput⟩ := toModelIo_ok hrgb frame
  obtain ⟨output, houtput, -⟩ := runModel_ok hlite input
  rw [upscale, validate, if_pos hvideo, bind_ok rfl, bind_ok hinput,
    show (modelImpl lite).runModel input = .ok output from houtput, bind_ok rfl, fromModelIo,
    tempFrame_ok halloc hfill, bind_ok rfl, convertColor_ok hback]
  exact ⟨_, rfl⟩

end Outcomes

/-! ## The planes -/

/-- the three planes of the frame are inside their buffers -/
def PlanesInside (frame : AVFrame π) : Prop := ∀ ch < 3, (frame.data ch).Inside frame.width frame.height

/-- the frame that `FromModelIo` lays over the denormalized numbers in this call -/
def Lays (ff : Ffmpeg π) (model : Model) (frame temp : Frame π) : Prop :=
  ∃ input output, toModelIo ff frame = .ok input ∧ model.runModel input = .ok output ∧
    tempFrame ff frame output model.scale = .ok temp

/-- **Room for three planes.** They are inside the buffer exactly when it has a byte for each of theirs. -/
theorem fillArrays_inside (buffer : List UInt8) (width height : ℕ) :
    (∀ ch < 3, (fillArrays buffer width height ch).Inside width height) ↔ 3 * (width * height) ≤ buffer.length := by
  refine ⟨?_, ?_⟩
  · intro h
    rcases Nat.eq_zero_or_pos width with rfl | hw
    · simp
    rcases Nat.eq_zero_or_pos height with rfl | hh
    · simp
    -- the last byte of the last plane
    have hlast := h 2 (by decide) (height - 1) (by omega) (width - 1) (by omega)
    have hrows : (height - 1) * width + width = width * height := by
      rw [← Nat.succ_mul, Nat.succ_eq_add_one, Nat.sub_add_cancel hh, Nat.mul_comm]
    simp only [fillArrays] at hlast
    omega
  · intro h ch hch y hy x hx
    have hplane : ch * (width * height) ≤ 2 * (width * height) := Nat.mul_le_mul_right _ (by omega)
    have hrow : y * width + width ≤ height * width := by
      rw [← Nat.succ_mul]
      exact Nat.mul_le_mul_right _ hy
    rw [Nat.mul_comm height] at hrow
    show ch * (width * height) + (x + y * width) < buffer.length
    omega

variable {ff : Ffmpeg π} {lite : LiteRt}

/-- what a call lays out is inside exactly when the frame has at most as many pixels as the model takes -/
theorem lays_inside_iff (hff : ff.Succeeds) (hlite : lite.Succeeds) (frame : Frame π) :
    (∀ temp, Lays ff (modelImpl lite) frame temp → PlanesInside temp.frame) ↔
      frame.frame.width * frame.frame.height ≤ 240 * 240 := by
  obtain ⟨hrgb, halloc, hfill, -⟩ := hff
  have hsize : ∀ output : ModelIo, output.data.length = outputSize / 4 →
      (PlanesInside (π := π) ⟨frame.frame.width * kUpscale, frame.frame.height * kUpscale, .gbr24p,
        fillArrays (output.data.map denormalize) (frame.frame.width * kUpscale) (frame.frame.height * kUpscale),
        frame.frame.props⟩ ↔ frame.frame.width * frame.frame.height ≤ 240 * 240) := by
    intro output hlength
    refine (fillArrays_inside _ _ _).trans ?_
    rw [List.length_map, hlength, Nat.mul_mul_mul_comm, kUpscale, outputSize]
    omega
  refine ⟨?_, ?_⟩
  · intro h
    obtain ⟨input, hinput⟩ := toModelIo_ok hrgb frame
    obtain ⟨output, houtput, hlength⟩ := runModel_ok hlite input
    exact (hsize output hlength).1 (h _ ⟨input, output, hinput, houtput, tempFrame_ok halloc hfill ..⟩)
  · intro h temp hlays
    obtain ⟨input, output, -, houtput, htemp⟩ := hlays
    obtain ⟨output', houtput', hlength⟩ := runModel_ok hlite input
    obtain rfl : output' = output := Except.ok.inj (houtput'.symm.trans houtput)
    rw [tempFrame_ok halloc hfill] at htemp
    obtain rfl := Except.ok.inj htemp
    exact (hsize output' hlength).2 h

/-- **Inside, exactly.** For every frame, every failure of FFmpeg and LiteRT, and every model with the tensors of this
size: the upscaler fails or lays its planes inside the vector exactly when the frame has at most 240 * 240 pixels, or it
is no video frame, or a call other than `Write` fails. -/
theorem upscale_inside_iff (ff : Ffmpeg π) (lite : LiteRt) (frame : Frame π) :
    ((∃ status, upscale ff (modelImpl lite) (some frame) = .error status) ∨
      ∀ temp, Lays ff (modelImpl lite) frame temp → PlanesInside temp.frame) ↔
    frame.frame.width * frame.frame.height ≤ 240 * 240 ∨
      frame.mediaType ≠ .video ∨ ¬ ff.Succeeds ∨ ¬ lite.Succeeds := by
  by_cases hfails : frame.mediaType ≠ .video ∨ ¬ ff.Succeeds ∨ ¬ lite.Succeeds
  · exact iff_of_true (Or.inl (upscale_error hfails)) (Or.inr hfails)
  · rw [or_iff_left hfails]
    simp only [not_or, not_not] at hfails
    obtain ⟨hvideo, hff, hlite⟩ := hfails
    obtain ⟨out, hout⟩ := upscale_ok hvideo hff hlite
    have hno : ¬ ∃ status, upscale ff (modelImpl lite) (some frame) = .error status := by
      intro h
      obtain ⟨status, h⟩ := h
      cases hout.symm.trans h
    rw [or_iff_right hno]
    exact lays_inside_iff hff hlite frame

/-- nothing fails, and the conversions make empty planes -/
def quiet : Ffmpeg Unit :=
  ⟨⟨false, false, none⟩, false, none, ⟨false, false, none⟩, fun _ _ => noPlanes, fun _ => ""⟩

/-- a model whose output is black -/
def black : LiteRt :=
  ⟨none, false, none, none, none, none, List.replicate inputLength 0,
    fun _ => ⟨List.replicate (outputSize / 4) 0, List.length_replicate⟩⟩

/-- a video frame of this size -/
def frameOf (width height : ℕ) : Frame Unit := ⟨0, .video, ⟨width, height, .other 2, noPlanes, ()⟩⟩

/-- **One more column.** A frame of 241 by 240 is upscaled without an error, and the planes reach past the vector. -/
theorem wide_frame_outside :
    ¬ ((∃ status, upscale quiet (modelImpl black) (some (frameOf 241 240)) = .error status) ∨
      ∀ temp, Lays quiet (modelImpl black) (frameOf 241 240) temp → PlanesInside temp.frame) := by
  have hff : quiet.Succeeds := ⟨⟨rfl, rfl, rfl⟩, rfl, rfl, rfl, rfl, rfl⟩
  have hlite : black.Succeeds := ⟨rfl, rfl, rfl, rfl, rfl⟩
  intro h
  rcases h with ⟨status, herror⟩ | h
  · have hvideo : (frameOf 241 240).mediaType = .video := rfl
    obtain ⟨out, hout⟩ := upscale_ok hvideo hff hlite
    cases hout.symm.trans herror
  · exact absurd ((lays_inside_iff hff hlite (frameOf 241 240)).1 h) (by decide)

end Viduce.Upscale
