/-
The spatially tiled encoders (`models/precond.py`): an image is cut into overlapping tiles, each tile goes through
`_encode` or `_decode` alone, and the results are blended over their overlaps and put together. `SpatialTiledEncoder3D`
and `SpatialTiledConditionEncoder3D` have the same `blend_v`, `blend_h`, `tiled_encode` and `encode`, modelled once; their
`tiled_decode` and `decode` differ in the conditioning clip and mask the second one hands to `_decode` with each tile.

`_encode` and `_decode` are parameters that may raise; what they return is a tensor of its own, so blending in place
writes to no other tile. Values are taken in exact arithmetic, and the axes before the last two are part of a pixel
(`Core/Image`). The source blends a tile and cuts it to the stride in one iteration; no later iteration changes the tile,
so here all of them are blended before any is cut.

- `only_aligned_blended`: what the two below come to, for both classes.
- `decodeTiles_ok`: decoding tiles of r times the extent gives an image of r times the size, blended from aligned
  pixels.
- `tiledEncode_ok`: encoding gives tiles that cover the image in latents, blended from aligned pixels.
- `encodeForTrain_ok`, `encode_ok`, `encoder3D_decode_ok`, `conditionEncoder3D_decode_ok`: the shapes of whole clips.
-/
import Mathlib.Tactic
import Viduce.Core.Overlap

namespace Viduce.Tiled

open Viduce.Overlap

/-! ## Tiles -/

/-- the arguments of the two constructors that the code reads. Neither checks them; the tile size and the stride are meant
to be multiples of the ratio, with a stride that leaves no gap. -/
structure Tiling where
  tileSampleMinHeight : ℕ
  tileSampleMinWidth : ℕ
  tileSampleMinTime : ℕ
  tileSampleStrideHeight : ℕ
  tileSampleStrideWidth : ℕ
  spatialCompressionRatio : ℕ
  minHeight_dvd : spatialCompressionRatio ∣ tileSampleMinHeight
  minWidth_dvd : spatialCompressionRatio ∣ tileSampleMinWidth
  strideHeight_dvd : spatialCompressionRatio ∣ tileSampleStrideHeight
  strideWidth_dvd : spatialCompressionRatio ∣ tileSampleStrideWidth
  strideHeight_pos : 0 < tileSampleStrideHeight
  strideWidth_pos : 0 < tileSampleStrideWidth
  strideHeight_le : tileSampleStrideHeight ≤ tileSampleMinHeight
  strideWidth_le : tileSampleStrideWidth ≤ tileSampleMinWidth

/-- the defaults of `__init__` -/
def Tiling.default : Tiling where
  tileSampleMinHeight := 128
  tileSampleMinWidth := 128
  tileSampleMinTime := 20
  tileSampleStrideHeight := 96
  tileSampleStrideWidth := 96
  spatialCompressionRatio := 8
  minHeight_dvd := by decide
  minWidth_dvd := by decide
  strideHeight_dvd := by decide
  strideWidth_dvd := by decide
  strideHeight_pos := by decide
  strideWidth_pos := by decide
  strideHeight_le := by decide
  strideWidth_le := by decide

namespace Tiling

def tileLatentMinHeight (self : Tiling) : ℕ := self.tileSampleMinHeight / self.spatialCompressionRatio

def tileLatentMinWidth (self : Tiling) : ℕ := self.tileSampleMinWidth / self.spatialCompressionRatio

def tileLatentStrideHeight (self : Tiling) : ℕ := self.tileSampleStrideHeight / self.spatialCompressionRatio

def tileLatentStrideWidth (self : Tiling) : ℕ := self.tileSampleStrideWidth / self.spatialCompressionRatio

variable (self : Tiling)

theorem ratio_mul_minHeight : self.spatialCompressionRatio * self.tileLatentMinHeight = self.tileSampleMinHeight :=
  Nat.mul_div_cancel' self.minHeight_dvd

theorem ratio_mul_minWidth : self.spatialCompressionRatio * self.tileLatentMinWidth = self.tileSampleMinWidth :=
  Nat.mul_div_cancel' self.minWidth_dvd

theorem ratio_mul_strideHeight :
    self.spatialCompressionRatio * self.tileLatentStrideHeight = self.tileSampleStrideHeight :=
  Nat.mul_div_cancel' self.strideHeight_dvd

theorem ratio_mul_strideWidth : self.spatialCompressionRatio * self.tileLatentStrideWidth = self.tileSampleStrideWidth :=
  Nat.mul_div_cancel' self.strideWidth_dvd

/-- nothing but 0 is a multiple of 0 -/
theorem ratio_pos : 0 < self.spatialCompressionRatio :=
  Nat.pos_of_dvd_of_pos self.strideHeight_dvd self.strideHeight_pos

theorem latentStrideHeight_pos : 0 < self.tileLatentStrideHeight :=
  Nat.div_pos (Nat.le_of_dvd self.strideHeight_pos self.strideHeight_dvd) self.ratio_pos

theorem latentStrideWidth_pos : 0 < self.tileLatentStrideWidth :=
  Nat.div_pos (Nat.le_of_dvd self.strideWidth_pos self.strideWidth_dvd) self.ratio_pos

theorem latentStrideHeight_le : self.tileLatentStrideHeight ≤ self.tileLatentMinHeight :=
  Nat.div_le_div_right self.strideHeight_le

theorem latentStrideWidth_le : self.tileLatentStrideWidth ≤ self.tileLatentMinWidth :=
  Nat.div_le_div_right self.strideWidth_le

/-- the number of rows of tiles of an image, `len(range(0, height, tile_sample_stride_height))` -/
def rows (height : ℕ) : ℕ := count self.tileSampleStrideHeight height

def columns (width : ℕ) : ℕ := count self.tileSampleStrideWidth width

/-- the number of rows of tiles of latents, `len(range(0, height, tile_latent_stride_height))` -/
def latentRows (height : ℕ) : ℕ := count self.tileLatentStrideHeight height

def latentColumns (width : ℕ) : ℕ := count self.tileLatentStrideWidth width

variable {U V W X : Type}

/-- the tile of x in row a and column b: cut out and padded to the tile size -/
def sampleTile [Zero U] (x : Image U) (a b : ℕ) : Image U :=
  let i := a * self.tileSampleStrideHeight
  let j := b * self.tileSampleStrideWidth
  (x.slice i (i + self.tileSampleMinHeight) j (j + self.tileSampleMinWidth)).padTo
    self.tileSampleMinHeight self.tileSampleMinWidth

/-- the tile of the latents z in row a and column b -/
def latentTile (z : Image V) (a b : ℕ) : Image V :=
  let i := a * self.tileLatentStrideHeight
  let j := b * self.tileLatentStrideWidth
  z.slice i (i + self.tileLatentMinHeight) j (j + self.tileLatentMinWidth)

/-- the part of the clip or the mask that goes with the tile of latents in row a and column b -/
def conditionTile (cond : Image V) (a b : ℕ) : Image V :=
  let i := a * self.tileLatentStrideHeight
  let j := b * self.tileLatentStrideWidth
  let ratio := self.spatialCompressionRatio
  cond.slice (i * ratio) ((i + self.tileLatentMinHeight) * ratio) (j * ratio) ((j + self.tileLatentMinWidth) * ratio)

end Tiling

/-! ## Encoding and decoding tile by tile -/

section Code

variable {U V W X : Type} [AddCommGroup X] [Module ℚ X]

/-- an entry of the table of tiles before anything is assigned to it; never read -/
def unset : ℕ → ℕ → Image X := fun _ _ => ⟨[], 0, 0, fun _ _ => 0⟩

/-- `tiled_encode` of both classes -/
def Tiling.tiledEncode [Zero U] (self : Tiling) (encode : Image U → Except PyErr (Image X)) (x : Image U) :
    Except PyErr (Stack X) := do
  let n := self.rows x.height
  let m := self.columns x.width
  let blendHeight := self.tileLatentMinHeight - self.tileLatentStrideHeight
  let blendWidth := self.tileLatentMinWidth - self.tileLatentStrideWidth
  let rows ← forGrid n m (fun _ a b => encode (self.sampleTile x a b)) unset
  let rows ← forGrid n m (blendTile blendHeight blendWidth) rows
  stack n m fun a b => (rows a b).slice 0 self.tileLatentStrideHeight 0 self.tileLatentStrideWidth

/-- what the two `tiled_decode` have in common: everything but how the tile in row a and column b is decoded -/
def Tiling.decodeTiles (self : Tiling) (height width : ℕ) (tile : ℕ → ℕ → Except PyErr (Image X)) :
    Except PyErr (Image X) := do
  let n := self.latentRows height
  let m := self.latentColumns width
  let blendHeight := self.tileSampleMinHeight - self.tileSampleStrideHeight
  let blendWidth := self.tileSampleMinWidth - self.tileSampleStrideWidth
  let rows ← forGrid n m (fun _ a b => tile a b) unset
  let rows ← forGrid n m (blendTile blendHeight blendWidth) rows
  assemble n m self.tileSampleStrideHeight self.tileSampleStrideWidth rows

/-- `SpatialTiledEncoder3D.tiled_decode` -/
def SpatialTiledEncoder3D.tiledDecode (self : Tiling) (decode : Image V → Except PyErr (Image X)) (z : Image V) :
    Except PyErr (Image X) :=
  self.decodeTiles z.height z.width fun a b => decode (self.latentTile z a b)

/-- `SpatialTiledConditionEncoder3D.tiled_decode` -/
def SpatialTiledConditionEncoder3D.tiledDecode (self : Tiling)
    (decode : Image V → Image U → Image W → Except PyErr (Image X)) (z : Image V) (cond : Image U) (msk : Image W) :
    Except PyErr (Image X) :=
  self.decodeTiles z.height z.width fun a b =>
    decode (self.latentTile z a b) (self.conditionTile cond a b) (self.conditionTile msk a b)

omit [AddCommGroup X] [Module ℚ X]

/-- `(nh h) (nw w)`: the stacked tiles laid out -/
def layOut (st : Stack X) : Image X :=
  ⟨st.lead, st.rows * st.height, st.columns * st.width,
    fun i j => st.px (i / st.height) (j / st.width) (i % st.height) (j % st.width)⟩

/-- what `encode(for_train=False)` makes of the stacked tiles of a height by width image: laid out, and cut to its
latents -/
def Tiling.stitch (self : Tiling) (height width : ℕ) (st : Stack X) : Image X :=
  let latentHeight := height / self.spatialCompressionRatio
  let latentWidth := width / self.spatialCompressionRatio
  (layOut st).slice 0 latentHeight 0 latentWidth

end Code

/-! ## Aligned pixels -/

section Aligned

variable {U V W X : Type} [AddCommGroup X] [Module ℚ X]

/-- the values that the tiles covering position (Y, P) assign to it, where tile (a, b) begins at (a * sv, b * sh) -/
def tileValues (sv sh n m : ℕ) (tile : ℕ → ℕ → Except PyErr (Image X)) (Y P : ℕ) : Set X :=
  {v | ∃ a < n, ∃ b < m, ∃ t, tile a b = .ok t ∧
    ∃ y < t.height, ∃ x < t.width, a * sv + y = Y ∧ b * sh + x = P ∧ t.px y x = v}

/-- every tile is part of one image -/
def PartsOf (px : ℕ → ℕ → X) (sv sh n m : ℕ) (tile : ℕ → ℕ → Except PyErr (Image X)) : Prop :=
  ∀ a < n, ∀ b < m, ∀ t, tile a b = .ok t → ∀ y < t.height, ∀ x < t.width, t.px y x = px (a * sv + y) (b * sh + x)

/-- the tiles are made, and tile (a, b) has this size -/
def Makes (lead : List ℕ) (height width : ℕ → ℕ → ℕ) (n m : ℕ) (tile : ℕ → ℕ → Except PyErr (Image X)) : Prop :=
  ∀ a < n, ∀ b < m, ∃ t, tile a b = .ok t ∧ t.lead = lead ∧ t.height = height a b ∧ t.width = width a b

/-- each pixel is a convex combination of what the tiles assign to its position, so parts of one image make up that
image -/
structure Blends (sv sh n m : ℕ) (tile : ℕ → ℕ → Except PyErr (Image X)) (out : Image X) : Prop where
  mem : ∀ Y < out.height, ∀ P < out.width, out.px Y P ∈ convexHull ℚ (tileValues sv sh n m tile Y P)
  restores : ∀ px, PartsOf px sv sh n m tile → ∀ Y < out.height, ∀ P < out.width, out.px Y P = px Y P

theorem blends_of_mem {sv sh n m : ℕ} {tile : ℕ → ℕ → Except PyErr (Image X)} {out : Image X}
    (h : ∀ Y < out.height, ∀ P < out.width, out.px Y P ∈ convexHull ℚ (tileValues sv sh n m tile Y P)) :
    Blends sv sh n m tile out := by
  refine ⟨h, fun px hpx Y hY P hP => ?_⟩
  have hvalues : tileValues sv sh n m tile Y P ⊆ {px Y P} := by
    rintro v ⟨a, ha, b, hb, t, ht, y, hy, x, hx, rfl, rfl, rfl⟩
    exact hpx a ha b hb t ht y hy x hx
  exact convexHull_min hvalues (convex_singleton _) (h Y hY P hP)

omit [Module ℚ X] in
/-- the table of the tiles as they come from `_encode` or `_decode` -/
theorem makes_grid {lead : List ℕ} {height width : ℕ → ℕ → ℕ} {n m : ℕ} {tile : ℕ → ℕ → Except PyErr (Image X)}
    (h : Makes lead height width n m tile) :
    ∃ g, forGrid n m (fun _ a b => tile a b) unset = .ok g ∧
      (∀ a < n, ∀ b < m, (g a b).lead = lead ∧ (g a b).height = height a b ∧ (g a b).width = width a b) ∧
      ∀ sv sh Y P, assigned sv sh n m g Y P ⊆ tileValues sv sh n m tile Y P := by
  have : Nonempty (Image X) := ⟨unset 0 0⟩
  choose! t ht hsize using h
  obtain ⟨g, hg, hgt⟩ : ∃ g, forGrid n m (fun _ a b => tile a b) unset = .ok g ∧ ∀ a < n, ∀ b < m, g a b = t a b :=
    forGrid_ok fun a ha b hb _ _ => ht a ha b hb
  refine ⟨g, hg, fun a ha b hb => ?_, fun sv sh Y P => ?_⟩
  · rw [hgt a ha b hb]
    exact hsize a ha b hb
  · rintro v ⟨a, ha, b, hb, y, hy, x, hx, hY, hP, hv⟩
    rw [hgt a ha b hb] at hy hx hv
    exact ⟨a, ha, b, hb, t a b, ht a ha b hb, y, hy, x, hx, hY, hP, hv⟩

end Aligned

/-! ## The extents of the tiles -/

section Extents

variable {V : Type} (self : Tiling)

theorem latentTile_height (z : Image V) (a b : ℕ) :
    (self.latentTile z a b).height = extent self.tileLatentMinHeight self.tileLatentStrideHeight z.height a := by
  rw [Tiling.latentTile, Image.slice_height, extent]
  omega

theorem latentTile_width (z : Image V) (a b : ℕ) :
    (self.latentTile z a b).width = extent self.tileLatentMinWidth self.tileLatentStrideWidth z.width b := by
  rw [Tiling.latentTile, Image.slice_width, extent]
  omega

/-- the second image is r times the size of the first -/
def Scaled {W : Type} (r : ℕ) (z : Image V) (x : Image W) : Prop := x.height = r * z.height ∧ x.width = r * z.width

/-- **The windows fit.** A clip or mask of r times the size of the latents is cut to r times the extent of the tile. -/
theorem conditionTile_scaled {W : Type} {z : Image V} {cond : Image W} (h : Scaled self.spatialCompressionRatio z cond)
    (a b : ℕ) : Scaled self.spatialCompressionRatio (self.latentTile z a b) (self.conditionTile cond a b) := by
  rw [Scaled, Tiling.conditionTile, Tiling.latentTile, Image.slice_height, Image.slice_height, Image.slice_width,
    Image.slice_width, h.1, h.2, Nat.mul_sub, Nat.mul_sub, ← Nat.mul_min_mul_left, ← Nat.mul_min_mul_left]
  refine ⟨?_, ?_⟩ <;> ring_nf

end Extents

/-! ## What encoding and decoding give -/

section Results

variable {U V W X : Type} [AddCommGroup X] [Module ℚ X] (self : Tiling)

/-- **Decoding.** Tiles of r times the extent of the latents they come from make up an image of r times the size. -/
theorem decodeTiles_ok {z : Image V} {lead : List ℕ} {tile : ℕ → ℕ → Except PyErr (Image X)} (hheight : 1 ≤ z.height)
    (hwidth : 1 ≤ z.width)
    (htile : Makes lead (fun a b => self.spatialCompressionRatio * (self.latentTile z a b).height)
      (fun a b => self.spatialCompressionRatio * (self.latentTile z a b).width)
      (self.latentRows z.height) (self.latentColumns z.width) tile) :
    ∃ out, self.decodeTiles z.height z.width tile = .ok out ∧ out.lead = lead ∧
      out.height = self.spatialCompressionRatio * z.height ∧ out.width = self.spatialCompressionRatio * z.width ∧
      Blends self.tileSampleStrideHeight self.tileSampleStrideWidth (self.latentRows z.height) (self.latentColumns z.width)
        tile out := by
  obtain ⟨g, hg, hsize, hassigned⟩ := makes_grid htile
  have hr := self.ratio_pos
  have hrows :
      self.latentRows z.height = count self.tileSampleStrideHeight (self.spatialCompressionRatio * z.height) := by
    rw [← self.ratio_mul_strideHeight, count_mul hr self.latentStrideHeight_pos, Tiling.latentRows]
  have hcolumns :
      self.latentColumns z.width = count self.tileSampleStrideWidth (self.spatialCompressionRatio * z.width) := by
    rw [← self.ratio_mul_strideWidth, count_mul hr self.latentStrideWidth_pos, Tiling.latentColumns]
  have harranged : Arranged (self.latentRows z.height) (self.latentColumns z.width) lead
      (extent self.tileSampleMinHeight self.tileSampleStrideHeight (self.spatialCompressionRatio * z.height))
      (extent self.tileSampleMinWidth self.tileSampleStrideWidth (self.spatialCompressionRatio * z.width)) g := by
    intro a ha b hb
    obtain ⟨hlead, hgheight, hgwidth⟩ := hsize a ha b hb
    rw [← self.ratio_mul_minHeight, ← self.ratio_mul_strideHeight, ← self.ratio_mul_minWidth, ← self.ratio_mul_strideWidth,
      extent_mul, extent_mul, hlead, hgheight, hgwidth, latentTile_height, latentTile_width]
    exact ⟨rfl, rfl, rfl⟩
  rw [hrows, hcolumns] at harranged hg hassigned ⊢
  obtain ⟨out, hout, hlead, houtheight, houtwidth, hpx⟩ := blend_assemble_ok self.strideHeight_pos self.strideHeight_le
    self.strideWidth_pos self.strideWidth_le (Nat.mul_pos hr hheight) (Nat.mul_pos hr hwidth) harranged
  refine ⟨out, ?_, hlead, houtheight, houtwidth, blends_of_mem fun Y hY P hP => ?_⟩
  · rw [Tiling.decodeTiles, hrows, hcolumns, hg, ok_bind]
    exact hout
  · exact convexHull_mono (hassigned _ _ _ _) (hpx Y (houtheight ▸ hY) P (houtwidth ▸ hP))

/-- **Encoding.** Tiles of the tile size in latents make up an image that covers the latents of x. -/
theorem tiledEncode_ok [Zero U] {x : Image U} {lead : List ℕ} {encode : Image U → Except PyErr (Image X)}
    (hheight : 1 ≤ x.height) (hwidth : 1 ≤ x.width)
    (htile : Makes lead (fun _ _ => self.tileLatentMinHeight) (fun _ _ => self.tileLatentMinWidth)
      (self.rows x.height) (self.columns x.width) fun a b => encode (self.sampleTile x a b)) :
    ∃ st, self.tiledEncode encode x = .ok st ∧ st.rows = self.rows x.height ∧ st.columns = self.columns x.width ∧
      st.lead = lead ∧ st.height = self.tileLatentStrideHeight ∧ st.width = self.tileLatentStrideWidth ∧
      Blends self.tileLatentStrideHeight self.tileLatentStrideWidth (self.rows x.height) (self.columns x.width)
        (fun a b => encode (self.sampleTile x a b)) (layOut st) := by
  obtain ⟨g, hg, hsize, hassigned⟩ := makes_grid htile
  obtain ⟨st, hst, hrows, hcolumns, hlead, hstheight, hstwidth, hpx⟩ := blend_stack_ok self.latentStrideHeight_pos
    self.latentStrideHeight_le self.latentStrideWidth_pos self.latentStrideWidth_le
    (count_pos self.strideHeight_pos hheight) (count_pos self.strideWidth_pos hwidth) hsize
  refine ⟨st, ?_, hrows, hcolumns, hlead, hstheight, hstwidth, blends_of_mem fun Y hY P hP => ?_⟩
  · rw [Tiling.tiledEncode, hg, ok_bind]
    exact hst
  · rw [layOut, hrows, hstheight] at hY
    rw [layOut, hcolumns, hstwidth] at hP
    rw [layOut, hstheight, hstwidth]
    exact convexHull_mono (hassigned _ _ _ _) (hpx Y hY P hP)

/-- the laid out tiles reach as far as the latents of the image -/
theorem latents_covered (height width : ℕ) :
    height / self.spatialCompressionRatio ≤ self.rows height * self.tileLatentStrideHeight ∧
      width / self.spatialCompressionRatio ≤ self.columns width * self.tileLatentStrideWidth := by
  refine ⟨Nat.div_le_of_le_mul ?_, Nat.div_le_of_le_mul ?_⟩
  · calc height ≤ self.rows height * self.tileSampleStrideHeight := le_count_mul self.strideHeight_pos height
      _ = self.spatialCompressionRatio * (self.rows height * self.tileLatentStrideHeight) := by
        rw [← self.ratio_mul_strideHeight, Nat.mul_left_comm]
  · calc width ≤ self.columns width * self.tileSampleStrideWidth := le_count_mul self.strideWidth_pos width
      _ = self.spatialCompressionRatio * (self.columns width * self.tileLatentStrideWidth) := by
        rw [← self.ratio_mul_strideWidth, Nat.mul_left_comm]

/-- **Only aligned pixels are blended.** Tiles that come back from `_decode` with r times the extent of their latents make
up an image of r times the size of the latents, for both classes; the windows of the clip and the mask have r times the
extent of the tile. Tiles that come back from `_encode` r times smaller, stacked and laid out, cover the latents of the
image and are cut to them. Each pixel is a convex combination of what the tiles covering its position assign to it there;
if the tiles are parts of one image, the result is that image. -/
theorem only_aligned_blended [Zero U] (lead : List ℕ) :
    (∀ (decode : Image V → Image U → Image W → Except PyErr (Image X)) (z : Image V) (cond : Image U) (msk : Image W),
      1 ≤ z.height → 1 ≤ z.width →
      Makes lead (fun a b => self.spatialCompressionRatio * (self.latentTile z a b).height)
        (fun a b => self.spatialCompressionRatio * (self.latentTile z a b).width)
        (self.latentRows z.height) (self.latentColumns z.width)
        (fun a b => decode (self.latentTile z a b) (self.conditionTile cond a b) (self.conditionTile msk a b)) →
      ∃ out, SpatialTiledConditionEncoder3D.tiledDecode self decode z cond msk = .ok out ∧ out.lead = lead ∧
        out.height = self.spatialCompressionRatio * z.height ∧ out.width = self.spatialCompressionRatio * z.width ∧
        Blends self.tileSampleStrideHeight self.tileSampleStrideWidth (self.latentRows z.height)
          (self.latentColumns z.width) (fun a b => decode (self.latentTile z a b) (self.conditionTile cond a b)
          (self.conditionTile msk a b)) out) ∧
    (∀ (decode : Image V → Except PyErr (Image X)) (z : Image V), 1 ≤ z.height → 1 ≤ z.width →
      Makes lead (fun a b => self.spatialCompressionRatio * (self.latentTile z a b).height)
        (fun a b => self.spatialCompressionRatio * (self.latentTile z a b).width)
        (self.latentRows z.height) (self.latentColumns z.width) (fun a b => decode (self.latentTile z a b)) →
      ∃ out, SpatialTiledEncoder3D.tiledDecode self decode z = .ok out ∧ out.lead = lead ∧
        out.height = self.spatialCompressionRatio * z.height ∧ out.width = self.spatialCompressionRatio * z.width ∧
        Blends self.tileSampleStrideHeight self.tileSampleStrideWidth (self.latentRows z.height)
          (self.latentColumns z.width) (fun a b => decode (self.latentTile z a b)) out) ∧
    (∀ (z : Image V) (cond : Image U) (msk : Image W), Scaled self.spatialCompressionRatio z cond →
      Scaled self.spatialCompressionRatio z msk → ∀ a b,
      Scaled self.spatialCompressionRatio (self.latentTile z a b) (self.conditionTile cond a b) ∧
        Scaled self.spatialCompressionRatio (self.latentTile z a b) (self.conditionTile msk a b)) ∧
    (∀ (encode : Image U → Except PyErr (Image X)) (x : Image U), 1 ≤ x.height → 1 ≤ x.width →
      Makes lead (fun a b => (self.sampleTile x a b).height / self.spatialCompressionRatio)
        (fun a b => (self.sampleTile x a b).width / self.spatialCompressionRatio)
        (self.rows x.height) (self.columns x.width) (fun a b => encode (self.sampleTile x a b)) →
      ∃ st, self.tiledEncode encode x = .ok st ∧
        x.height / self.spatialCompressionRatio ≤ (layOut st).height ∧
        x.width / self.spatialCompressionRatio ≤ (layOut st).width ∧
        (self.stitch x.height x.width st).lead = lead ∧
        (self.stitch x.height x.width st).height = x.height / self.spatialCompressionRatio ∧
        (self.stitch x.height x.width st).width = x.width / self.spatialCompressionRatio ∧
        Blends self.tileLatentStrideHeight self.tileLatentStrideWidth (self.rows x.height) (self.columns x.width)
          (fun a b => encode (self.sampleTile x a b)) (self.stitch x.height x.width st)) := by
  refine ⟨fun decode z cond msk hheight hwidth htile => decodeTiles_ok self hheight hwidth htile,
    fun decode z hheight hwidth htile => decodeTiles_ok self hheight hwidth htile,
    fun z cond msk hcond hmsk a b => ⟨conditionTile_scaled self hcond a b, conditionTile_scaled self hmsk a b⟩,
    fun encode x hheight hwidth htile => ?_⟩
  obtain ⟨st, hst, hrows, hcolumns, hlead, hstheight, hstwidth, hblends⟩ := tiledEncode_ok self hheight hwidth htile
  obtain ⟨hcover, hcover'⟩ := latents_covered self x.height x.width
  have hlayheight : (layOut st).height = self.rows x.height * self.tileLatentStrideHeight := by
    rw [layOut, hrows, hstheight]
  have hlaywidth : (layOut st).width = self.columns x.width * self.tileLatentStrideWidth := by
    rw [layOut, hcolumns, hstwidth]
  rw [← hlayheight] at hcover
  rw [← hlaywidth] at hcover'
  refine ⟨st, hst, hcover, hcover', hlead, ?_, ?_, blends_of_mem fun Y hY P hP => ?_⟩
  · rw [Tiling.stitch, Image.slice_height, Nat.min_eq_left hcover, Nat.sub_zero]
  · rw [Tiling.stitch, Image.slice_width, Nat.min_eq_left hcover', Nat.sub_zero]
  · rw [Tiling.stitch, Image.slice_height, Nat.sub_zero] at hY
    rw [Tiling.stitch, Image.slice_width, Nat.sub_zero] at hP
    exact hblends.mem Y (hY.trans_le (Nat.min_le_right _ _)) P (hP.trans_le (Nat.min_le_right _ _))

end Results

/-! ## A run -/

/-- tiles of 10 at distances of 6, two pixels to one of the latents -/
def Tiling.small : Tiling where
  tileSampleMinHeight := 10
  tileSampleMinWidth := 10
  tileSampleMinTime := 1
  tileSampleStrideHeight := 6
  tileSampleStrideWidth := 6
  spatialCompressionRatio := 2
  minHeight_dvd := by decide
  minWidth_dvd := by decide
  strideHeight_dvd := by decide
  strideWidth_dvd := by decide
  strideHeight_pos := by decide
  strideWidth_pos := by decide
  strideHeight_le := by decide
  strideWidth_le := by decide

/-- each pixel twice in both directions -/
def double (z : Image ℚ) : Image ℚ := ⟨z.lead, 2 * z.height, 2 * z.width, fun i j => z.px (i / 2) (j / 2)⟩

/-- every other pixel in both directions -/
def halve (x : Image ℚ) : Image ℚ := ⟨x.lead, x.height / 2, x.width / 2, fun i j => x.px (2 * i) (2 * j)⟩

/-- an n by n image of different values -/
def ramp (n : ℕ) : Image ℚ := ⟨[], n, n, fun i j => n * i + j⟩

/-- a 4 by 4 image doubled tile by tile is the image doubled, and a 13 by 13 image is halved to 6 by 6 -/
theorem doubled_and_halved :
    (∃ out, SpatialTiledConditionEncoder3D.tiledDecode .small (fun z _ _ => .ok (double z)) (ramp 4) (ramp 8) (ramp 8) =
        .ok out ∧ out.height = 8 ∧ ∀ Y < 8, ∀ P < 8, out.px Y P = (ramp 4).px (Y / 2) (P / 2)) ∧
    (∃ out, SpatialTiledEncoder3D.tiledDecode .small (fun z => .ok (double z)) (ramp 4) = .ok out ∧ out.height = 8) ∧
    Scaled 2 (Tiling.small.latentTile (ramp 4) 1 1) (Tiling.small.conditionTile (ramp 8) 1 1) ∧
    (∃ st, Tiling.small.tiledEncode (fun x => .ok (halve x)) (ramp 13) = .ok st ∧
      (Tiling.small.stitch 13 13 st).height = 6) := by
  obtain ⟨hdecode, hplain, hwindows, hencode⟩ :=
    only_aligned_blended (U := ℚ) (V := ℚ) (W := ℚ) (X := ℚ) .small []
  refine ⟨?_, ?_, ?_, ?_⟩
  · obtain ⟨out, hout, -, hheight, hwidth, hblends⟩ := hdecode (fun z _ _ => .ok (double z)) (ramp 4) (ramp 8) (ramp 8)
      (by decide) (by decide) fun a _ b _ => ⟨_, rfl, rfl, rfl, rfl⟩
    refine ⟨out, hout, hheight, fun Y hY P hP => ?_⟩
    refine hblends.restores (fun Y P => (ramp 4).px (Y / 2) (P / 2)) ?_ Y (hheight ▸ hY) P (hwidth ▸ hP)
    rintro a - b - _ ⟨⟩ y - x -
    show (ramp 4).px (y / 2 + a * 3) (x / 2 + b * 3) = (ramp 4).px ((a * 6 + y) / 2) ((b * 6 + x) / 2)
    have hrow : (a * 6 + y) / 2 = y / 2 + a * 3 := by omega
    have hcolumn : (b * 6 + x) / 2 = x / 2 + b * 3 := by omega
    rw [hrow, hcolumn]
  · obtain ⟨out, hout, -, hheight, -⟩ := hplain (fun z => .ok (double z)) (ramp 4) (by decide) (by decide)
      fun a _ b _ => ⟨_, rfl, rfl, rfl, rfl⟩
    exact ⟨out, hout, hheight⟩
  · exact (hwindows (ramp 4) (ramp 8) (ramp 8) ⟨rfl, rfl⟩ ⟨rfl, rfl⟩ 1 1).1
  · obtain ⟨st, hst, -, -, -, hheight, -⟩ := hencode (fun x => .ok (halve x)) (ramp 13) (by decide) (by decide)
      fun a _ b _ => ⟨_, rfl, rfl, rfl, rfl⟩
    exact ⟨st, hst, hheight⟩

/-! ## Temporal tiles -/

/-- a pixel: a value for each index of the axes before the last two -/
abbrev Pixel : Type := List ℕ → ℚ

def einopsError (pattern : String) : PyErr :=
  ⟨.other, "Error while processing rearrange-reduction pattern \"" ++ pattern ++ "\"."⟩

/-- `rearrange(x, "b c (nt t) h w -> (b nt) c t h w", t=t)` -/
def splitTime (t : ℕ) (x : Image Pixel) : Except PyErr (Image Pixel) :=
  match x.lead with
  | [b, c, frames] =>
    if t = 0 ∨ frames % t ≠ 0 then .error (einopsError "b c (nt t) h w -> (b nt) c t h w")
    else
      let nt := frames / t
      .ok ⟨[b * nt, c, t], x.height, x.width, fun i j idx =>
        x.px i j [idx.getD 0 0 / nt, idx.getD 1 0, idx.getD 0 0 % nt * t + idx.getD 2 0]⟩
  | _ => .error (einopsError "b c (nt t) h w -> (b nt) c t h w")

/-- `rearrange(x, "nh nw (b nt) c t h w -> b nt nh nw c t h w", b=b)`, the axes of the spatial tiles kept in front -/
def splitBatch (b : ℕ) (st : Stack Pixel) : Except PyErr (Stack Pixel) :=
  match st.lead with
  | [bnt, c, t] =>
    if b = 0 ∨ bnt % b ≠ 0 then .error (einopsError "nh nw (b nt) c t h w -> b nt nh nw c t h w")
    else
      let nt := bnt / b
      .ok { st with
        lead := [b, nt, c, t]
        px := fun n m i j idx => st.px n m i j [idx.getD 0 0 * nt + idx.getD 1 0, idx.getD 2 0, idx.getD 3 0] }
  | _ => .error (einopsError "nh nw (b nt) c t h w -> b nt nh nw c t h w")

/-- `rearrange(x, "b nt c t h w -> (b nt) c t h w")` -/
def joinBatch (x : Image Pixel) : Except PyErr (Image Pixel) :=
  match x.lead with
  | [b, nt, c, t] =>
    .ok ⟨[b * nt, c, t], x.height, x.width, fun i j idx =>
      x.px i j [idx.getD 0 0 / nt, idx.getD 0 0 % nt, idx.getD 1 0, idx.getD 2 0]⟩
  | _ => .error (einopsError "b nt c t h w -> (b nt) c t h w")

/-- `rearrange(x, "(b nt) c t h w -> b c (nt t) h w", b=b)` -/
def joinTime (b : ℕ) (x : Image Pixel) : Except PyErr (Image Pixel) :=
  match x.lead with
  | [bnt, c, t] =>
    if b = 0 ∨ bnt % b ≠ 0 then .error (einopsError "(b nt) c t h w -> b c (nt t) h w")
    else
      let nt := bnt / b
      .ok ⟨[b, c, nt * t], x.height, x.width, fun i j idx =>
        x.px i j [idx.getD 0 0 * nt + idx.getD 2 0 / t, idx.getD 1 0, idx.getD 2 0 % t]⟩
  | _ => .error (einopsError "(b nt) c t h w -> b c (nt t) h w")

/-- `encode` of both classes up to the last rearrange: the temporal tiles of each clip, encoded -/
def Tiling.encodeTiles (self : Tiling) (encode : Image Pixel → Except PyErr (Image Pixel)) (x : Image Pixel) :
    Except PyErr (Stack Pixel) :=
  let frames := x.lead.getD 2 0
  if frames % self.tileSampleMinTime ≠ 0 then
    .error ⟨.other, s!"Input T={frames} must be divisible by tile_sample_min_time={self.tileSampleMinTime}."⟩
  else do
    let x ← splitTime self.tileSampleMinTime x
    self.tiledEncode encode x

/-- `encode(x, for_train=True)` -/
def Tiling.encodeForTrain (self : Tiling) (encode : Image Pixel → Except PyErr (Image Pixel)) (x : Image Pixel) :
    Except PyErr (Stack Pixel) := do
  let st ← self.encodeTiles encode x
  splitBatch (x.lead.headD 0) st

/-- `encode(x)`: the spatial tiles laid out, and cut to the latents of x -/
def Tiling.encode (self : Tiling) (encode : Image Pixel → Except PyErr (Image Pixel)) (x : Image Pixel) :
    Except PyErr (Image Pixel) := do
  let st ← self.encodeForTrain encode x
  .ok (self.stitch x.height x.width st)

/-- `SpatialTiledEncoder3D.decode` -/
def SpatialTiledEncoder3D.decode (self : Tiling) (decode : Image Pixel → Except PyErr (Image Pixel)) (z : Image Pixel) :
    Except PyErr (Image Pixel) := do
  let tiles ← joinBatch z
  let out ← SpatialTiledEncoder3D.tiledDecode self decode tiles
  joinTime (z.lead.headD 0) out

/-- `SpatialTiledConditionEncoder3D.decode` -/
def SpatialTiledConditionEncoder3D.decode (self : Tiling)
    (decode : Image Pixel → Image Pixel → Image Pixel → Except PyErr (Image Pixel)) (z cond msk : Image Pixel) :
    Except PyErr (Image Pixel) := do
  let tiles ← joinBatch z
  let cond ← joinBatch cond
  let msk ← joinBatch msk
  let out ← SpatialTiledConditionEncoder3D.tiledDecode self decode tiles cond msk
  joinTime (z.lead.headD 0) out

section Shapes

variable (self : Tiling)

theorem splitTime_ok {x : Image Pixel} {c nt t : ℕ} (ht : 0 < t) (hlead : x.lead = [1, c, nt * t]) :
    ∃ y, splitTime t x = .ok y ∧ y.lead = [nt, c, t] ∧ y.height = x.height ∧ y.width = x.width := by
  rw [splitTime, hlead]
  simp only [Nat.mul_mod_left, Nat.mul_div_cancel _ ht, ht.ne', ne_eq, not_true_eq_false, or_self, if_false, one_mul]
  exact ⟨_, rfl, rfl, rfl, rfl⟩

theorem splitBatch_ok {st : Stack Pixel} {nt c t : ℕ} (hlead : st.lead = [nt, c, t]) :
    ∃ out, splitBatch 1 st = .ok out ∧ out.lead = [1, nt, c, t] ∧ out.rows = st.rows ∧ out.columns = st.columns ∧
      out.height = st.height ∧ out.width = st.width := by
  rw [splitBatch, hlead]
  simp only [Nat.mod_one, Nat.div_one, ne_eq, not_true_eq_false, one_ne_zero, or_self, if_false]
  exact ⟨_, rfl, rfl, rfl, rfl, rfl, rfl⟩

theorem joinBatch_ok {x : Image Pixel} {nt c t : ℕ} (hlead : x.lead = [1, nt, c, t]) :
    ∃ y, joinBatch x = .ok y ∧ y.lead = [nt, c, t] ∧ y.height = x.height ∧ y.width = x.width := by
  rw [joinBatch, hlead]
  simp only [one_mul]
  exact ⟨_, rfl, rfl, rfl, rfl⟩

theorem joinTime_ok {x : Image Pixel} {nt c t : ℕ} (hlead : x.lead = [nt, c, t]) :
    ∃ y, joinTime 1 x = .ok y ∧ y.lead = [1, c, nt * t] ∧ y.height = x.height ∧ y.width = x.width := by
  rw [joinTime, hlead]
  simp only [Nat.mod_one, Nat.div_one, ne_eq, not_true_eq_false, one_ne_zero, or_self, if_false]
  exact ⟨_, rfl, rfl, rfl, rfl⟩

/-- encoding a clip whose frames make up nt temporal tiles -/
theorem encodeForTrain_ok {encode : Image Pixel → Except PyErr (Image Pixel)} {x : Image Pixel} {c nt c' t' : ℕ}
    (htime : 0 < self.tileSampleMinTime) (hlead : x.lead = [1, c, nt * self.tileSampleMinTime]) (hheight : 1 ≤ x.height)
    (hwidth : 1 ≤ x.width)
    (hencode : ∀ y : Image Pixel, y.lead = [nt, c, self.tileSampleMinTime] → y.height = self.tileSampleMinHeight →
      y.width = self.tileSampleMinWidth → ∃ z, encode y = .ok z ∧ z.lead = [nt, c', t'] ∧
        z.height = self.tileLatentMinHeight ∧ z.width = self.tileLatentMinWidth) :
    ∃ st, self.encodeForTrain encode x = .ok st ∧ st.rows = self.rows x.height ∧ st.columns = self.columns x.width ∧
      st.lead = [1, nt, c', t'] ∧ st.height = self.tileLatentStrideHeight ∧ st.width = self.tileLatentStrideWidth := by
  have hframes : x.lead.getD 2 0 % self.tileSampleMinTime = 0 := by
    rw [hlead]
    exact Nat.mul_mod_left _ _
  obtain ⟨y, hy, hylead, hyheight, hywidth⟩ := splitTime_ok htime hlead
  have hmakes : Makes [nt, c', t'] (fun _ _ => self.tileLatentMinHeight) (fun _ _ => self.tileLatentMinWidth)
      (self.rows y.height) (self.columns y.width) fun a b => encode (self.sampleTile y a b) :=
    fun a _ b _ => hencode _ hylead rfl rfl
  obtain ⟨st, hst, hrows, hcolumns, hstlead, hstheight, hstwidth, -⟩ :=
    tiledEncode_ok self (hyheight ▸ hheight) (hywidth ▸ hwidth) hmakes
  rw [hyheight] at hrows
  rw [hywidth] at hcolumns
  obtain ⟨out, hout, houtlead, houtrows, houtcolumns, houtheight, houtwidth⟩ := splitBatch_ok hstlead
  refine ⟨out, ?_, houtrows.trans hrows, houtcolumns.trans hcolumns, houtlead, houtheight.trans hstheight,
    houtwidth.trans hstwidth⟩
  rw [Tiling.encodeForTrain, Tiling.encodeTiles, if_neg (not_not.2 hframes), hy, ok_bind, hst, ok_bind, hlead]
  exact hout

/-- the latents of a clip are r times smaller than it -/
theorem encode_ok {encode : Image Pixel → Except PyErr (Image Pixel)} {x : Image Pixel} {c nt c' t' : ℕ}
    (htime : 0 < self.tileSampleMinTime) (hlead : x.lead = [1, c, nt * self.tileSampleMinTime]) (hheight : 1 ≤ x.height)
    (hwidth : 1 ≤ x.width)
    (hencode : ∀ y : Image Pixel, y.lead = [nt, c, self.tileSampleMinTime] → y.height = self.tileSampleMinHeight →
      y.width = self.tileSampleMinWidth → ∃ z, encode y = .ok z ∧ z.lead = [nt, c', t'] ∧
        z.height = self.tileLatentMinHeight ∧ z.width = self.tileLatentMinWidth) :
    ∃ z, self.encode encode x = .ok z ∧ z.lead = [1, nt, c', t'] ∧
      z.height = x.height / self.spatialCompressionRatio ∧ z.width = x.width / self.spatialCompressionRatio := by
  obtain ⟨st, hst, hrows, hcolumns, hstlead, hstheight, hstwidth⟩ :=
    encodeForTrain_ok self htime hlead hheight hwidth hencode
  obtain ⟨hcover, hcover'⟩ := latents_covered self x.height x.width
  refine ⟨self.stitch x.height x.width st, by rw [Tiling.encode, hst, ok_bind], hstlead, ?_, ?_⟩
  · rw [Tiling.stitch, Image.slice_height, layOut, hrows, hstheight, Nat.min_eq_left hcover, Nat.sub_zero]
  · rw [Tiling.stitch, Image.slice_width, layOut, hcolumns, hstwidth, Nat.min_eq_left hcover', Nat.sub_zero]

/-- decoding nt temporal tiles of latents, each to t' frames -/
theorem encoder3D_decode_ok {decode : Image Pixel → Except PyErr (Image Pixel)} {z : Image Pixel} {nt c t c' t' : ℕ}
    (hlead : z.lead = [1, nt, c, t]) (hheight : 1 ≤ z.height) (hwidth : 1 ≤ z.width)
    (hdecode : ∀ y : Image Pixel, y.lead = [nt, c, t] → ∃ x, decode y = .ok x ∧ x.lead = [nt, c', t'] ∧
      Scaled self.spatialCompressionRatio y x) :
    ∃ out, SpatialTiledEncoder3D.decode self decode z = .ok out ∧ out.lead = [1, c', nt * t'] ∧
      Scaled self.spatialCompressionRatio z out := by
  obtain ⟨y, hy, hylead, hyheight, hywidth⟩ := joinBatch_ok hlead
  have hmakes : Makes [nt, c', t'] (fun a b => self.spatialCompressionRatio * (self.latentTile y a b).height)
      (fun a b => self.spatialCompressionRatio * (self.latentTile y a b).width) (self.latentRows y.height)
      (self.latentColumns y.width) fun a b => decode (self.latentTile y a b) := fun a _ b _ => hdecode _ hylead
  obtain ⟨x, hx, hxlead, hxheight, hxwidth, -⟩ := decodeTiles_ok self (hyheight ▸ hheight) (hywidth ▸ hwidth) hmakes
  obtain ⟨out, hout, houtlead, houtheight, houtwidth⟩ := joinTime_ok hxlead
  refine ⟨out, ?_, houtlead, by rw [houtheight, hxheight, hyheight], by rw [houtwidth, hxwidth, hywidth]⟩
  rw [SpatialTiledEncoder3D.decode, hy, ok_bind, SpatialTiledEncoder3D.tiledDecode, hx, ok_bind, hlead]
  exact hout

/-- the same with a clip and a mask of r times the size of the latents -/
theorem conditionEncoder3D_decode_ok {decode : Image Pixel → Image Pixel → Image Pixel → Except PyErr (Image Pixel)}
    {z cond msk : Image Pixel} {nt c t cc ct mc mt c' t' : ℕ} (hlead : z.lead = [1, nt, c, t])
    (hcond : cond.lead = [1, nt, cc, ct]) (hmsk : msk.lead = [1, nt, mc, mt]) (hheight : 1 ≤ z.height)
    (hwidth : 1 ≤ z.width) (hcondsize : Scaled self.spatialCompressionRatio z cond)
    (hmsksize : Scaled self.spatialCompressionRatio z msk)
    (hdecode : ∀ y k m : Image Pixel, y.lead = [nt, c, t] → k.lead = [nt, cc, ct] → m.lead = [nt, mc, mt] →
      Scaled self.spatialCompressionRatio y k → Scaled self.spatialCompressionRatio y m →
      ∃ x, decode y k m = .ok x ∧ x.lead = [nt, c', t'] ∧ Scaled self.spatialCompressionRatio y x) :
    ∃ out, SpatialTiledConditionEncoder3D.decode self decode z cond msk = .ok out ∧ out.lead = [1, c', nt * t'] ∧
      Scaled self.spatialCompressionRatio z out := by
  obtain ⟨y, hy, hylead, hyheight, hywidth⟩ := joinBatch_ok hlead
  obtain ⟨k, hk, hklead, hkheight, hkwidth⟩ := joinBatch_ok hcond
  obtain ⟨m, hm, hmlead, hmheight, hmwidth⟩ := joinBatch_ok hmsk
  have hksize : Scaled self.spatialCompressionRatio y k :=
    ⟨by rw [hkheight, hyheight, hcondsize.1], by rw [hkwidth, hywidth, hcondsize.2]⟩
  have hmsize : Scaled self.spatialCompressionRatio y m :=
    ⟨by rw [hmheight, hyheight, hmsksize.1], by rw [hmwidth, hywidth, hmsksize.2]⟩
  have hmakes : Makes [nt, c', t'] (fun a b => self.spatialCompressionRatio * (self.latentTile y a b).height)
      (fun a b => self.spatialCompressionRatio * (self.latentTile y a b).width) (self.latentRows y.height)
      (self.latentColumns y.width)
      (fun a b => decode (self.latentTile y a b) (self.conditionTile k a b) (self.conditionTile m a b)) :=
    fun a _ b _ => hdecode _ _ _ hylead hklead hmlead (conditionTile_scaled self hksize a b)
      (conditionTile_scaled self hmsize a b)
  obtain ⟨x, hx, hxlead, hxheight, hxwidth, -⟩ := decodeTiles_ok self (hyheight ▸ hheight) (hywidth ▸ hwidth) hmakes
  obtain ⟨out, hout, houtlead, houtheight, houtwidth⟩ := joinTime_ok hxlead
  refine ⟨out, ?_, houtlead, by rw [houtheight, hxheight, hyheight], by rw [houtwidth, hxwidth, hywidth]⟩
  rw [SpatialTiledConditionEncoder3D.decode, hy, ok_bind, hk, ok_bind, hm, ok_bind,
    SpatialTiledConditionEncoder3D.tiledDecode, hx, ok_bind, hlead]
  exact hout

end Shapes

end Viduce.Tiled
