/-
The letterbox of the broadcast page (web/src/resize.ts): every frame of the camera is scaled to fit a square, drawn in its
middle and padded with black.

- `drawn`: the length of one side after the scaling. `drawn_mem_Icc`, `drawn_long`, `drawn_short`: it is between 0 and the
  target, the target on the longer side, and within half a pixel of the length that keeps the aspect on the shorter one.
- `letterbox_placement`: where the picture lies, for every size of source and every whole target.
- `letterbox_calls_inside`, `letterbox_letterbox`: what is drawn for a frame lies on the canvas, and a letterboxed frame is
  drawn as it is.
-/
import Mathlib.Tactic
import Viduce.Core.Rounding

namespace Viduce.Letterbox

/-- `TARGET_SIZE` -/
def targetSize : ℚ := 240

/-- the placement of a scaled source in the target square -/
structure LetterboxRect where
  drawW : ℚ
  drawH : ℚ
  offsetX : ℚ
  offsetY : ℚ
  deriving DecidableEq, Repr

/-- `computeLetterbox`, in exact arithmetic; Math.round takes a half up -/
def computeLetterbox (srcW srcH target : ℚ) : LetterboxRect :=
  let scale := min (target / srcW) (target / srcH)
  let drawW : ℚ := round (srcW * scale)
  let drawH : ℚ := round (srcH * scale)
  { drawW := drawW
    drawH := drawH
    offsetX := (target - drawW) / 2
    offsetY := (target - drawH) / 2 }

/-! ## The frames -/

/-- what the page reads of a VideoFrame: its size, and when and how long it shows -/
structure VideoFrame where
  displayWidth : ℚ
  displayHeight : ℚ
  timestamp : ℤ
  duration : Option ℕ
  deriving DecidableEq, Repr

/-- what is called on the canvas -/
inductive DrawCall
  | fillRect (fillStyle : String) (x y w h : ℚ)
  | drawImage (frame : VideoFrame) (x y w h : ℚ)
  deriving DecidableEq, Repr

/-- `letterbox`: the calls on the canvas, and the frame made of it. The source frame is closed. -/
def letterbox (frame : VideoFrame) : List DrawCall × VideoFrame :=
  let r := computeLetterbox frame.displayWidth frame.displayHeight targetSize
  ([.fillRect "black" 0 0 targetSize targetSize, .drawImage frame r.offsetX r.offsetY r.drawW r.drawH],
    { displayWidth := targetSize
      displayHeight := targetSize
      timestamp := frame.timestamp
      duration := frame.duration })

/-! ## One side -/

/-- a side `a` of the source, drawn; the other side is `b` -/
def drawn (a b target : ℚ) : ℤ := round (a * min (target / a) (target / b))

section
variable {a b : ℚ} (ha : 0 < a) (hb : 0 < b)
include ha

/-- scaled to fit, a side is as long as the target or as its aspect allows -/
theorem scaled_eq (target : ℚ) : a * min (target / a) (target / b) = min target (a * target / b) := by
  rw [mul_min_of_nonneg _ _ ha.le, mul_div_cancel₀ _ ha.ne', mul_div_assoc]

include hb

theorem drawn_mem_Icc {target : ℤ} (ht : 0 ≤ target) : 0 ≤ drawn a b target ∧ drawn a b target ≤ target := by
  have ht' : (0 : ℚ) ≤ target := Int.cast_nonneg ht
  apply round_mem_Icc
  · rw [scaled_eq ha, Int.cast_zero]
    exact le_min ht' (by positivity)
  · rw [scaled_eq ha]
    exact min_le_left _ _

/-- the longer side fills the square -/
theorem drawn_long {target : ℤ} (ht : 0 ≤ target) (hba : b ≤ a) : drawn a b target = target := by
  have ht' : (0 : ℚ) ≤ target := Int.cast_nonneg ht
  have hle : (target : ℚ) ≤ a * target / b := by
    rw [le_div_iff₀ hb, mul_comm]
    exact mul_le_mul_of_nonneg_right hba ht'
  rw [drawn, scaled_eq ha, min_eq_left hle, round_intCast]

/-- the other one keeps the aspect up to half a pixel -/
theorem drawn_short {target : ℤ} (ht : 0 ≤ target) (hab : a ≤ b) :
    |(drawn a b target : ℚ) - a * target / b| ≤ 1 / 2 := by
  have ht' : (0 : ℚ) ≤ target := Int.cast_nonneg ht
  have hle : a * target / b ≤ target := by
    rw [div_le_iff₀ hb, mul_comm (target : ℚ)]
    exact mul_le_mul_of_nonneg_right hab ht'
  rw [drawn, scaled_eq ha, min_eq_right hle, abs_sub_comm]
  exact abs_sub_round _

end

/-! ## The rectangle -/

def LetterboxRect.Inside (r : LetterboxRect) (target : ℚ) : Prop :=
  (0 ≤ r.offsetX ∧ 0 ≤ r.drawW ∧ r.offsetX + r.drawW ≤ target) ∧
    0 ≤ r.offsetY ∧ 0 ≤ r.drawH ∧ r.offsetY + r.drawH ≤ target

def LetterboxRect.Centred (r : LetterboxRect) (target : ℚ) : Prop :=
  2 * r.offsetX + r.drawW = target ∧ 2 * r.offsetY + r.drawH = target

/-- the two axes exchanged -/
def LetterboxRect.swap (r : LetterboxRect) : LetterboxRect := ⟨r.drawH, r.drawW, r.offsetY, r.offsetX⟩

theorem computeLetterbox_eq (srcW srcH target : ℚ) :
    computeLetterbox srcW srcH target =
      ⟨drawn srcW srcH target, drawn srcH srcW target,
        (target - drawn srcW srcH target) / 2, (target - drawn srcH srcW target) / 2⟩ := by
  simp only [computeLetterbox, drawn, min_comm (target / srcH)]

theorem computeLetterbox_swap (srcW srcH target : ℚ) :
    computeLetterbox srcH srcW target = (computeLetterbox srcW srcH target).swap := by
  simp only [computeLetterbox_eq, LetterboxRect.swap]

theorem computeLetterbox_centred (srcW srcH target : ℚ) : (computeLetterbox srcW srcH target).Centred target := by
  rw [computeLetterbox_eq]
  constructor <;> dsimp only <;> ring

theorem computeLetterbox_inside {srcW srcH : ℚ} (hW : 0 < srcW) (hH : 0 < srcH) {target : ℤ} (ht : 0 ≤ target) :
    (computeLetterbox srcW srcH target).Inside target := by
  have haxis : ∀ {d : ℤ}, 0 ≤ d → d ≤ target →
      0 ≤ ((target : ℚ) - d) / 2 ∧ (0 : ℚ) ≤ d ∧ ((target : ℚ) - d) / 2 + d ≤ target := by
    intro d hd hdt
    have hd' : (0 : ℚ) ≤ d := Int.cast_nonneg hd
    have hdt' : (d : ℚ) ≤ target := Int.cast_le.2 hdt
    exact ⟨by linarith, hd', by linarith⟩
  obtain ⟨hw0, hwt⟩ := drawn_mem_Icc hW hH ht
  obtain ⟨hh0, hht⟩ := drawn_mem_Icc hH hW ht
  rw [computeLetterbox_eq]
  exact ⟨haxis hw0 hwt, haxis hh0 hht⟩

/-- **The placement.** The picture lies inside the square and in its middle, fills it along the longer side of the source
and keeps the aspect up to half a pixel on the other, and turning the source turns it. -/
theorem letterbox_placement {srcW srcH : ℚ} (hW : 0 < srcW) (hH : 0 < srcH) {target : ℤ} (ht : 1 ≤ target) :
    (computeLetterbox srcW srcH target).Inside target ∧
    (computeLetterbox srcW srcH target).Centred target ∧
    (srcH ≤ srcW → (computeLetterbox srcW srcH target).drawW = target ∧
      |(computeLetterbox srcW srcH target).drawH - srcH * target / srcW| ≤ 1 / 2) ∧
    (srcW ≤ srcH → (computeLetterbox srcW srcH target).drawH = target ∧
      |(computeLetterbox srcW srcH target).drawW - srcW * target / srcH| ≤ 1 / 2) ∧
    computeLetterbox srcH srcW target = (computeLetterbox srcW srcH target).swap := by
  have ht0 : 0 ≤ target := Int.le_of_lt (Int.lt_of_lt_of_le Int.zero_lt_one ht)
  refine ⟨computeLetterbox_inside hW hH ht0, computeLetterbox_centred _ _ _, ?_, ?_, computeLetterbox_swap _ _ _⟩
  · intro hwide
    rw [computeLetterbox_eq]
    exact ⟨congrArg Int.cast (drawn_long hW hH ht0 hwide), drawn_short hH hW ht0 hwide⟩
  · intro htall
    rw [computeLetterbox_eq]
    exact ⟨congrArg Int.cast (drawn_long hH hW ht0 htall), drawn_short hW hH ht0 htall⟩

/-- a picture of 3 by 2 in a square of 5, where the height is rounded -/
theorem rounded_height_placement :
    (computeLetterbox 3 2 5).Inside 5 ∧ (computeLetterbox 3 2 5).drawW = 5 ∧
      |(computeLetterbox 3 2 5).drawH - 10 / 3| ≤ 1 / 2 := by
  obtain ⟨hinside, -, hwide, -⟩ := @letterbox_placement 3 2 (by norm_num) (by norm_num) 5 (by norm_num)
  obtain ⟨hfill, haspect⟩ := hwide (by norm_num)
  norm_num at hinside hfill haspect ⊢
  exact ⟨hinside, hfill, haspect⟩

/-! ## What is drawn -/

def DrawCall.rect : DrawCall → LetterboxRect
  | .fillRect _ x y w h | .drawImage _ x y w h => ⟨w, h, x, y⟩

theorem targetSize_eq : targetSize = (240 : ℤ) := by norm_num [targetSize]

theorem letterbox_calls_inside {frame : VideoFrame} (hW : 0 < frame.displayWidth) (hH : 0 < frame.displayHeight) :
    ∀ call ∈ (letterbox frame).1, call.rect.Inside targetSize := by
  intro call hcall
  simp only [letterbox, List.mem_cons, List.not_mem_nil, or_false] at hcall
  rcases hcall with rfl | rfl
  · norm_num [DrawCall.rect, LetterboxRect.Inside, targetSize]
  · rw [targetSize_eq]
    exact computeLetterbox_inside hW hH (by decide)

/-- a square source fills the target -/
theorem computeLetterbox_square {a : ℚ} (ha : 0 < a) {target : ℤ} (ht : 0 ≤ target) :
    computeLetterbox a a target = ⟨target, target, 0, 0⟩ := by
  rw [computeLetterbox_eq, drawn_long ha ha ht le_rfl, sub_self, zero_div]

/-- the size of the source is lost, the times are kept -/
theorem letterbox_letterbox (frame : VideoFrame) :
    letterbox (letterbox frame).2 =
      ([.fillRect "black" 0 0 targetSize targetSize, .drawImage (letterbox frame).2 0 0 targetSize targetSize],
        (letterbox frame).2) := by
  have hsquare : computeLetterbox targetSize targetSize targetSize = ⟨targetSize, targetSize, 0, 0⟩ := by
    rw [targetSize_eq]
    exact computeLetterbox_square (by norm_num) (by decide)
  simp only [letterbox, hsquare]

end Viduce.Letterbox
