/-
Which colour stands where in the model's numbers (`upscaler.cc`). Both directions take the three planes of GBR24P in the
order FFmpeg stores them, and the model takes them for red, green and blue.

- `passes_iff`, `makes_iff`: what a model sees of a frame, and what becomes of its output.
- `inputRgb_iff`: what the model is given is red, green, blue exactly when every pixel is grey.
- `outputRgb_iff`: what it returns is taken for red, green, blue exactly when it denormalizes to grey.
- `rgb_order_iff`: the two together, with the calls that fail.
- `red_pixel_swapped`: one red pixel.

A frame of any format has at each pixel a colour; FFmpeg's conversion to GBR24P keeps it.
-/
import Mathlib.Tactic
import Viduce.Engine.Planes

namespace Viduce.Upscale

open Viduce.Absl

variable {π : Type}

structure Rgb where
  red : UInt8
  green : UInt8
  blue : UInt8
deriving DecidableEq, Repr

/-- component c, of red, green and blue -/
def Rgb.component (colour : Rgb) : ℕ → UInt8
  | 0 => colour.red
  | 1 => colour.green
  | _ => colour.blue

/-- the colour at (x, y) of a GBR24P frame: its planes are green, blue and red -/
def AVFrame.gbr24pColour (frame : AVFrame π) (x y : ℕ) : Rgb :=
  ⟨frame.sample 2 x y, frame.sample 0 x y, frame.sample 1 x y⟩

/-- the frame that `ToModelIo` converts to -/
def Ffmpeg.rgbFrame (ff : Ffmpeg π) (frame : AVFrame π) : AVFrame π :=
  ⟨frame.width, frame.height, .gbr24p, ff.scaleFrame frame ⟨frame.width, frame.height, .gbr24p⟩, frame.props⟩

/-- the colours of frames, as FFmpeg has them: in GBR24P they are in the planes, and converting to it keeps them -/
structure Ffmpeg.Shows (ff : Ffmpeg π) (colour : AVFrame π → ℕ → ℕ → Rgb) : Prop where
  gbr24p : ∀ frame : AVFrame π, frame.format = .gbr24p → ∀ y < frame.height, ∀ x < frame.width,
    colour frame x y = frame.gbr24pColour x y
  rgbFrame : ∀ frame : AVFrame π, ∀ y < frame.height, ∀ x < frame.width,
    colour (ff.rgbFrame frame) x y = colour frame x y

/-- `Upscale` of this frame passes these numbers to `RunModel`, whatever the model -/
def Passes (ff : Ffmpeg π) (frame : Frame π) (input : ModelIo) : Prop :=
  ∀ model : Model, upscale ff model (some frame) =
    model.runModel input >>= fun output => fromModelIo ff frame output model.scale

/-- what the model is given has component c of pixel (x, y), over 255, at index c * H * W + y * W + x -/
def InputRgb (ff : Ffmpeg π) (colour : AVFrame π → ℕ → ℕ → Rgb) (frame : Frame π) : Prop :=
  ∀ input, Passes ff frame input → ∀ c < 3, ∀ y < frame.frame.height, ∀ x < frame.frame.width,
    input.data[c * frame.frame.height * frame.frame.width + y * frame.frame.width + x]? =
      some ((((colour frame.frame x y).component c).toNat : ℚ) / 255)

/-- plane c of the model's output, at these height and width, as bytes -/
def outputByte (output : ModelIo) (height width c x y : ℕ) : UInt8 :=
  (output.data.map denormalize).getD (c * height * width + y * width + x) 0

/-- `FromModelIo` lays this frame over the model's output and returns what it converts to -/
def Makes (ff : Ffmpeg π) (frame : Frame π) (output : ModelIo) (outScale : ℕ) (temp : Frame π) : Prop :=
  tempFrame ff frame output outScale = .ok temp ∧
    fromModelIo ff frame output outScale =
      convertColor ff ff.fromRgb temp ⟨temp.frame.width, temp.frame.height, frame.frame.format⟩

/-- the frame made of the model's output has plane c of it for component c -/
def OutputRgb (ff : Ffmpeg π) (colour : AVFrame π → ℕ → ℕ → Rgb) (frame : Frame π) (output : ModelIo) (outScale : ℕ) :
    Prop :=
  ∀ temp, Makes ff frame output outScale temp → ∀ c < 3, ∀ y < temp.frame.height, ∀ x < temp.frame.width,
    (colour temp.frame x y).component c = outputByte output temp.frame.height temp.frame.width c x y

/-- every pixel of the frame is grey -/
def Grey (colour : AVFrame π → ℕ → ℕ → Rgb) (frame : AVFrame π) : Prop :=
  ∀ y < frame.height, ∀ x < frame.width,
    (colour frame x y).red = (colour frame x y).green ∧ (colour frame x y).green = (colour frame x y).blue

/-- the three planes of the output denormalize to the same bytes -/
def GreyOutput (output : ModelIo) (height width : ℕ) : Prop :=
  ∀ y < height, ∀ x < width, outputByte output height width 0 x y = outputByte output height width 1 x y ∧
    outputByte output height width 1 x y = outputByte output height width 2 x y

/-- a colour whose components are those one place on is grey -/
theorem Rgb.turned_iff {colour : Rgb} :
    (∀ c < 3, colour.component ((c + 1) % 3) = colour.component c) ↔
      colour.red = colour.green ∧ colour.green = colour.blue := by
  constructor
  · intro h
    exact ⟨(h 0 (by decide)).symm, (h 1 (by decide)).symm⟩
  · intro h c hc
    obtain ⟨hrg, hgb⟩ := h
    interval_cases c
    · exact hrg.symm
    · exact hgb.symm
    · exact hrg.trans hgb

section Order

variable {ff : Ffmpeg π} {colour : AVFrame π → ℕ → ℕ → Rgb}

/-- a model that tells its input by its status -/
def telling (input : ModelIo) (code : StatusCode) : Model :=
  ⟨1, fun given => .error ⟨if given.data = input.data then code else .unimplemented, ""⟩⟩

/-- **What passes.** A video frame that is converted, to the numbers of its conversion; two models that tell their input
from others tell it. -/
theorem passes_iff {frame : Frame π} {input : ModelIo} :
    Passes ff frame input ↔ validate (some frame) = .ok frame ∧ toModelIo ff frame = .ok input := by
  constructor
  · intro h
    have htold : ∀ code, upscale ff (telling input code) (some frame) = .error ⟨code, ""⟩ := by
      intro code
      have htells : (telling input code).runModel input = .error ⟨code, ""⟩ := by
        simp only [telling, if_true]
      rw [h, htells]
      rfl
    by_cases hvideo : frame.mediaType = .video
    · have hvalid : validate (some frame) = .ok frame := by rw [validate, if_pos hvideo]
      refine ⟨hvalid, ?_⟩
      cases hinput : toModelIo ff frame with
      | error status =>
        have hfails : ∀ model, upscale ff model (some frame) = .error status := by
          intro model
          rw [upscale, bind_ok hvalid, hinput]
          rfl
        cases (htold .internal).symm.trans (hfails _)
        cases (htold .notFound).symm.trans (hfails _)
      | ok given =>
        have hgiven := htold .internal
        rw [upscale, bind_ok hvalid, bind_ok hinput] at hgiven
        by_cases hsame : given.data = input.data
        · exact congrArg Except.ok (congrArg ModelIo.mk hsame)
        · have htells : (telling input .internal).runModel given = .error ⟨.unimplemented, ""⟩ := by
            simp only [telling, if_neg hsame]
          rw [htells] at hgiven
          cases hgiven
    · have hfails : ∀ model, upscale ff model (some frame) =
          .error ⟨.invalidArgument, "Input frame is not a video frame"⟩ := by
        intro model
        rw [upscale, validate, if_neg hvideo]
        rfl
      cases (htold .internal).symm.trans (hfails _)
  · intro h model
    rw [upscale, bind_ok h.1, bind_ok h.2]

/-- a temporary frame that is made is converted -/
theorem makes_iff {frame temp : Frame π} {output : ModelIo} {outScale : ℕ} :
    Makes ff frame output outScale temp ↔ tempFrame ff frame output outScale = .ok temp := by
  refine and_iff_left_of_imp ?_
  intro htemp
  rw [fromModelIo, bind_ok htemp]

theorem byte_div_inj {a b : UInt8} : ((a.toNat : ℚ) / 255 = (b.toNat : ℚ) / 255) ↔ a = b := by
  rw [div_left_inj' (by norm_num), Nat.cast_inj, UInt8.toNat_inj]

/-- what the model is given, by colours: green, blue, red -/
theorem normalize_colour (hff : ff.Shows colour) {frame : Frame π} {c x y : ℕ} (hc : c < 3) (hy : y < frame.frame.height)
    (hx : x < frame.frame.width) :
    (normalize (ff.rgbFrame frame.frame))[c * frame.frame.height * frame.frame.width + y * frame.frame.width + x]? =
      some ((((colour frame.frame x y).component ((c + 1) % 3)).toNat : ℚ) / 255) := by
  have hcolour : colour frame.frame x y = (ff.rgbFrame frame.frame).gbr24pColour x y := by
    rw [← hff.rgbFrame frame.frame y hy x hx]
    exact hff.gbr24p (ff.rgbFrame frame.frame) rfl y hy x hx
  rw [hcolour]
  refine (normalize_getElem? (ff.rgbFrame frame.frame) hc hy hx).trans ?_
  interval_cases c <;> rfl

/-- **To the model.** The model is given red, green, blue exactly when every pixel is grey, or the call does not get to it.
-/
theorem inputRgb_iff (hff : ff.Shows colour) (frame : Frame π) :
    InputRgb ff colour frame ↔ Grey colour frame.frame ∨ frame.mediaType ≠ .video ∨ ¬ ff.toRgb.Succeeds := by
  by_cases hcalls : frame.mediaType = .video ∧ ff.toRgb.Succeeds
  · obtain ⟨hvideo, hrgb⟩ := hcalls
    have hvalid : validate (some frame) = .ok frame := by rw [validate, if_pos hvideo]
    rw [or_iff_left (by simp [hvideo, hrgb])]
    constructor
    · intro h y hy x hx
      obtain ⟨input, hinput⟩ := toModelIo_ok hrgb frame
      obtain ⟨-, hdata⟩ := toModelIo_eq_ok hinput
      refine Rgb.turned_iff.1 fun c hc => ?_
      have hrgb := h input (passes_iff.2 ⟨hvalid, hinput⟩) c hc y hy x hx
      have hcolour := normalize_colour hff hc hy hx
      rw [hdata] at hrgb
      exact byte_div_inj.1 (Option.some.inj (hcolour.symm.trans hrgb))
    · intro hgrey input hpass c hc y hy x hx
      obtain ⟨-, hdata⟩ := toModelIo_eq_ok (passes_iff.1 hpass).2
      rw [hdata]
      refine (normalize_colour hff hc hy hx).trans ?_
      rw [Rgb.turned_iff.2 (hgrey y hy x hx) c hc]
  · refine iff_of_true ?_ (Or.inr (not_and_or.1 hcalls))
    intro input hpass
    obtain ⟨hvalid, hinput⟩ := passes_iff.1 hpass
    refine absurd ⟨?_, (toModelIo_eq_ok hinput).1⟩ hcalls
    by_contra hvideo
    rw [validate, if_neg hvideo] at hvalid
    cases hvalid

/-- the frame made of the model's output, by colours: plane 0 is taken for green, plane 1 for blue, plane 2 for red -/
theorem tempFrame_colour (hff : ff.Shows colour) {frame temp : Frame π} {output : ModelIo} {outScale : ℕ}
    (h : tempFrame ff frame output outScale = .ok temp) {c x y : ℕ} (hc : c < 3) (hy : y < temp.frame.height)
    (hx : x < temp.frame.width) :
    (colour temp.frame x y).component ((c + 1) % 3) = outputByte output temp.frame.height temp.frame.width c x y := by
  obtain ⟨-, -, hformat, hsample⟩ := tempFrame_sample h
  rw [hff.gbr24p temp.frame hformat y hy x hx]
  refine Eq.trans ?_ (hsample c x y)
  interval_cases c <;> rfl

/-- **From the model.** Its output is taken for red, green, blue exactly when it denormalizes to grey, or a call fails. -/
theorem outputRgb_iff (hff : ff.Shows colour) (frame : Frame π) (output : ModelIo) (outScale : ℕ) :
    OutputRgb ff colour frame output outScale ↔
      GreyOutput output (frame.frame.height * outScale) (frame.frame.width * outScale) ∨
        ¬ (ff.tempAllocFails = false ∧ ff.fillFails = none) := by
  by_cases hcalls : ff.tempAllocFails = false ∧ ff.fillFails = none
  · obtain ⟨temp, htemp⟩ : ∃ temp, tempFrame ff frame output outScale = .ok temp :=
      ⟨_, tempFrame_ok hcalls.1 hcalls.2 frame output outScale⟩
    obtain ⟨hwidth, hheight, -⟩ := tempFrame_sample htemp
    rw [or_iff_left (not_not.2 hcalls), ← hwidth, ← hheight]
    constructor
    · intro h y hy x hx
      have hturned := Rgb.turned_iff.1 fun c hc => (tempFrame_colour hff htemp hc hy hx).trans
        (h temp (makes_iff.2 htemp) c hc y hy x hx).symm
      have hbyte : ∀ c < 3, outputByte output temp.frame.height temp.frame.width c x y = (colour temp.frame x y).component c :=
        fun c hc => (h temp (makes_iff.2 htemp) c hc y hy x hx).symm
      rw [hbyte 0 (by decide), hbyte 1 (by decide), hbyte 2 (by decide)]
      exact hturned
    · intro hgrey temp' hmakes c hc y hy x hx
      obtain rfl : temp = temp' := Except.ok.inj (htemp.symm.trans (makes_iff.1 hmakes))
      have hbyte := fun c hc => tempFrame_colour hff htemp (c := c) hc hy hx
      obtain ⟨h01, h12⟩ := hgrey y hy x hx
      have h0 := hbyte 0 (by decide)
      have h1 := hbyte 1 (by decide)
      have h2 := hbyte 2 (by decide)
      interval_cases c
      · exact h2.trans (h12.symm.trans h01.symm)
      · exact h0.trans h01
      · exact h1.trans h12
  · refine iff_of_true ?_ (Or.inr hcalls)
    intro temp hmakes
    obtain ⟨status, hstatus⟩ := tempFrame_error hcalls frame output outScale
    cases hstatus.symm.trans (makes_iff.1 hmakes)

/-- **Red, green, blue, exactly.** For every frame and every output of the model: the model is given red, green and blue, and
its output is taken for them, exactly when every pixel of the frame is grey and the output denormalizes to grey. A part
whose call fails before it has nothing to mix up. -/
theorem rgb_order_iff (hff : ff.Shows colour) (frame : Frame π) (output : ModelIo) (outScale : ℕ) :
    InputRgb ff colour frame ∧ OutputRgb ff colour frame output outScale ↔
      (Grey colour frame.frame ∨ frame.mediaType ≠ .video ∨ ¬ ff.toRgb.Succeeds) ∧
        (GreyOutput output (frame.frame.height * outScale) (frame.frame.width * outScale) ∨
          ¬ (ff.tempAllocFails = false ∧ ff.fillFails = none)) :=
  and_congr (inputRgb_iff hff frame) (outputRgb_iff hff frame output outScale)

end Order

/-! ## One pixel -/

theorem keeping_shows : keeping.Shows AVFrame.gbr24pColour := ⟨fun _ _ _ _ _ _ => rfl, fun _ _ _ _ _ => rfl⟩

/-- a GBR24P frame of one pixel -/
def onePixel (colour : Rgb) : Frame Unit :=
  ⟨0, .video, ⟨1, 1, .gbr24p, fun ch => ⟨[colour.component ((ch + 1) % 3)], 0, 1⟩, ()⟩⟩

/-- a grey pixel is given and taken as it is -/
theorem grey_pixel_kept : InputRgb keeping AVFrame.gbr24pColour (onePixel ⟨7, 7, 7⟩) ∧
    OutputRgb keeping AVFrame.gbr24pColour (onePixel ⟨7, 7, 7⟩) ⟨[1, 1, 1]⟩ 1 := by
  refine (rgb_order_iff keeping_shows (onePixel ⟨7, 7, 7⟩) ⟨[1, 1, 1]⟩ 1).2 ⟨Or.inl ?_, Or.inl ?_⟩
  · intro y hy x hx
    obtain rfl : y = 0 := Nat.lt_one_iff.1 hy
    obtain rfl : x = 0 := Nat.lt_one_iff.1 hx
    decide
  · intro y hy x hx
    obtain rfl : y = 0 := Nat.lt_one_iff.1 hy
    obtain rfl : x = 0 := Nat.lt_one_iff.1 hx
    exact ⟨rfl, rfl⟩

/-- **A red pixel.** The model is given it as blue, and a red output is taken for green. -/
theorem red_pixel_swapped : ¬ InputRgb keeping AVFrame.gbr24pColour (onePixel ⟨255, 0, 0⟩) ∧
    ¬ OutputRgb keeping AVFrame.gbr24pColour (onePixel ⟨255, 0, 0⟩) ⟨[1, 0, 0]⟩ 1 := by
  constructor
  · rw [inputRgb_iff keeping_shows]
    intro h
    rcases h with hgrey | hvideo | hcalls
    · exact absurd (hgrey 0 (by decide) 0 (by decide)).1 (by decide)
    · exact hvideo rfl
    · exact hcalls ⟨rfl, rfl, rfl⟩
  · rw [outputRgb_iff keeping_shows]
    intro h
    rcases h with hgrey | hcalls
    · have hbytes : denormalize 1 = denormalize 0 := (hgrey 0 (by decide) 0 (by decide)).1
      have hone : denormalize 1 = 255 := by simpa [normScale] using denormalize_byte 255
      have hzero : denormalize 0 = 0 := by simpa using denormalize_byte 0
      rw [hone, hzero] at hbytes
      cases hbytes
    · exact hcalls ⟨rfl, rfl⟩

end Viduce.Upscale
