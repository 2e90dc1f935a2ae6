/-
What the transformer is told about the keyframes. The mask of a call goes through the tiled mask encoder: windows in time,
spatial tiles that overlap and reach over the border of the frame, and a blend of what comes out of them.

- `sampleTile_px`: the pixels of a tile, zero outside of the frame.
- `encodeForTrain_mask`: each channel of each latent is one pixel of one frame, the tiles and the blend notwithstanding.
- `mask_latents`: within the frame it is 1 if that frame is a keyframe, and 0 if not.
-/
import Mathlib.Tactic
import Viduce.Daemon.TiledSession
import Viduce.Daemon.Keyframes
import Viduce.Models.MaskEncoder

namespace Viduce.TiledSession

open Viduce.Chunks Viduce.SessionRunner Viduce.Tiled Viduce.Overlap

/-! ## Through the tiles -/

/-- if the tiles agree with an image at one index of a pixel, so does what they are blended to -/
theorem blends_at {sv sh n m : ℕ} {tile : ℕ → ℕ → Except PyErr (Image Pixel)} {out : Image Pixel}
    (hblends : Blends sv sh n m tile out) (idx : List ℕ) {f : ℕ → ℕ → ℚ}
    (hvalue : ∀ a < n, ∀ b < m, ∀ t, tile a b = .ok t → ∀ y < t.height, ∀ x < t.width,
      t.px y x idx = f (a * sv + y) (b * sh + x)) {Y P : ℕ} (hY : Y < out.height) (hP : P < out.width) :
    out.px Y P idx = f Y P := by
  have hsub : tileValues sv sh n m tile Y P ⊆ {v | v idx ∈ ({f Y P} : Set ℚ)} := by
    rintro v ⟨a, ha, b, hb, t, ht, y, hy, x, hx, rfl, rfl, rfl⟩
    exact hvalue a ha b hb t ht y hy x hx
  have hconvex : Convex ℚ {v : Pixel | v idx ∈ ({f Y P} : Set ℚ)} :=
    (convex_singleton (f Y P)).linear_preimage (LinearMap.proj idx : Pixel →ₗ[ℚ] ℚ)
  exact convexHull_min hsub hconvex (hblends.mem Y hY P hP)

theorem splitTime_px {x : Image Pixel} {c nt t : ℕ} (ht : 0 < t) (hlead : x.lead = [1, c, nt * t]) :
    ∃ y, splitTime t x = .ok y ∧ y.lead = [nt, c, t] ∧ y.height = x.height ∧ y.width = x.width ∧
      ∀ i j q κ f, y.px i j [q, κ, f] = x.px i j [q / nt, κ, q % nt * t + f] := by
  rw [splitTime, hlead]
  simp only [Nat.mul_mod_left, Nat.mul_div_cancel _ ht, ht.ne', ne_eq, not_true_eq_false, or_self, if_false, one_mul]
  exact ⟨_, rfl, rfl, rfl, rfl, fun _ _ _ _ _ => rfl⟩

theorem splitBatch_px {st : Stack Pixel} {nt c t : ℕ} (hlead : st.lead = [nt, c, t]) :
    ∃ out, splitBatch 1 st = .ok out ∧ out.lead = [1, nt, c, t] ∧
      ∀ n m i j q κ f, out.px n m i j [0, q, κ, f] = st.px n m i j [q, κ, f] := by
  rw [splitBatch, hlead]
  simp only [Nat.mod_one, Nat.div_one, ne_eq, not_true_eq_false, one_ne_zero, or_self, if_false]
  refine ⟨_, rfl, rfl, fun n m i j q κ f => ?_⟩
  simp

section Encoded

variable (self : Tiling)

/-- the pixels of a tile that latents are taken from -/
theorem sampleTile_px (x : Image Pixel) (a b : ℕ) {i j : ℕ} (hi : i < self.tileLatentMinHeight)
    (hj : j < self.tileLatentMinWidth) (idx : List ℕ) :
    (self.sampleTile x a b).px (self.spatialCompressionRatio * i) (self.spatialCompressionRatio * j) idx =
      if self.spatialCompressionRatio * (a * self.tileLatentStrideHeight + i) < x.height ∧
          self.spatialCompressionRatio * (b * self.tileLatentStrideWidth + j) < x.width then
        x.px (self.spatialCompressionRatio * (a * self.tileLatentStrideHeight + i))
          (self.spatialCompressionRatio * (b * self.tileLatentStrideWidth + j)) idx
      else 0 := by
  set r := self.spatialCompressionRatio with hr
  have hrow : r * (a * self.tileLatentStrideHeight + i) = r * i + a * self.tileSampleStrideHeight := by
    rw [← self.ratio_mul_strideHeight]
    ring
  have hcolumn : r * (b * self.tileLatentStrideWidth + j) = r * j + b * self.tileSampleStrideWidth := by
    rw [← self.ratio_mul_strideWidth]
    ring
  have hi' : r * i < self.tileSampleMinHeight := by
    rw [← self.ratio_mul_minHeight]
    exact Nat.mul_lt_mul_of_pos_left hi self.ratio_pos
  have hj' : r * j < self.tileSampleMinWidth := by
    rw [← self.ratio_mul_minWidth]
    exact Nat.mul_lt_mul_of_pos_left hj self.ratio_pos
  have hinside : (r * i < (x.slice (a * self.tileSampleStrideHeight)
        (a * self.tileSampleStrideHeight + self.tileSampleMinHeight) (b * self.tileSampleStrideWidth)
        (b * self.tileSampleStrideWidth + self.tileSampleMinWidth)).height ∧
      r * j < (x.slice (a * self.tileSampleStrideHeight)
        (a * self.tileSampleStrideHeight + self.tileSampleMinHeight) (b * self.tileSampleStrideWidth)
        (b * self.tileSampleStrideWidth + self.tileSampleMinWidth)).width) ↔
      r * (a * self.tileLatentStrideHeight + i) < x.height ∧ r * (b * self.tileLatentStrideWidth + j) < x.width := by
    rw [Image.slice_height, Image.slice_width, hrow, hcolumn]
    omega
  rw [Tiling.sampleTile, Image.padTo]
  simp only [hinside]
  split_ifs
  · rw [hrow, hcolumn]
    rfl
  · rfl

/-- what the encoder makes of one tile -/
theorem encodeTile_sampled {y : Image Pixel} {nt k : ℕ} (hlead : y.lead = [nt, 1, k * 5]) (hnt : 0 < nt) (a b : ℕ) :
    ∃ z, MaskSpatialTiledEncoder3D.encodeTile self.spatialCompressionRatio (self.sampleTile y a b) = .ok z ∧
      z.lead = [nt, 4, k * 2] ∧ z.height = self.tileLatentMinHeight ∧ z.width = self.tileLatentMinWidth ∧
      ∀ q < nt, ∀ c < 4, ∀ t < k * 2, ∀ i < self.tileLatentMinHeight, ∀ j < self.tileLatentMinWidth,
        z.px i j [q, c, t] =
          (self.sampleTile y a b).px (self.spatialCompressionRatio * i) (self.spatialCompressionRatio * j)
            [q, 0, maskFrame t c] := by
  have hr := self.ratio_pos
  have hL : 0 < self.tileLatentMinHeight := self.latentStrideHeight_pos.trans_le self.latentStrideHeight_le
  have hL' : 0 < self.tileLatentMinWidth := self.latentStrideWidth_pos.trans_le self.latentStrideWidth_le
  have hM : self.spatialCompressionRatio ≤ self.tileSampleMinHeight :=
    (Nat.le_mul_of_pos_right _ hL).trans_eq self.ratio_mul_minHeight
  have hM' : self.spatialCompressionRatio ≤ self.tileSampleMinWidth :=
    (Nat.le_mul_of_pos_right _ hL').trans_eq self.ratio_mul_minWidth
  obtain ⟨z, hz, hsamples⟩ := encodeTile_ok (x := self.sampleTile y a b) hlead hnt hr hM hM'
  refine ⟨z, hz, hsamples.lead, hsamples.height, hsamples.width, fun q hq c hc t ht i _ j _ => ?_⟩
  rw [hsamples.px q hq c hc t ht i j]
  have hnearest : ∀ {e M L : ℕ}, self.spatialCompressionRatio * L = M → 0 < L →
      e * M / (M / self.spatialCompressionRatio) = self.spatialCompressionRatio * e := by
    intro e M L hML hpos
    rw [← hML, Nat.mul_div_cancel_left _ hr, ← Nat.mul_assoc, Nat.mul_div_cancel _ hpos, Nat.mul_comm]
  have hrow := hnearest (e := i) self.ratio_mul_minHeight hL
  have hcolumn := hnearest (e := j) self.ratio_mul_minWidth hL'
  exact congrArg₂ (fun i j => (self.sampleTile y a b).px i j [q, 0, maskFrame t c]) hrow hcolumn

/-- **Through the tiles.** The latents of the mask of a clip: each channel is one pixel of one frame, 0 outside of it. -/
theorem encodeForTrain_mask {x : Image Pixel} {nt k : ℕ} (htime : self.tileSampleMinTime = k * 5) (hk : 0 < k)
    (hnt : 0 < nt) (hlead : x.lead = [1, 1, nt * self.tileSampleMinTime]) (hheight : 1 ≤ x.height) (hwidth : 1 ≤ x.width) :
    ∃ st, self.encodeForTrain (MaskSpatialTiledEncoder3D.encodeTile self.spatialCompressionRatio) x = .ok st ∧
      st.lead = [1, nt, 4, k * 2] ∧
      ∀ n < self.rows x.height, ∀ m < self.columns x.width, ∀ i < self.tileLatentStrideHeight,
        ∀ j < self.tileLatentStrideWidth, ∀ q < nt, ∀ c < 4, ∀ t < k * 2,
          st.px n m i j [0, q, c, t] =
            if self.spatialCompressionRatio * (n * self.tileLatentStrideHeight + i) < x.height ∧
                self.spatialCompressionRatio * (m * self.tileLatentStrideWidth + j) < x.width then
              x.px (self.spatialCompressionRatio * (n * self.tileLatentStrideHeight + i))
                (self.spatialCompressionRatio * (m * self.tileLatentStrideWidth + j))
                [0, 0, q * self.tileSampleMinTime + maskFrame t c]
            else 0 := by
  have htime' : 0 < self.tileSampleMinTime := by omega
  have hframes : x.lead.getD 2 0 % self.tileSampleMinTime = 0 := by
    rw [hlead]
    exact Nat.mul_mod_left _ _
  obtain ⟨y, hy, hylead, hyheight, hywidth, hypx⟩ := splitTime_px htime' hlead
  have hmakes : Makes [nt, 4, k * 2] (fun _ _ => self.tileLatentMinHeight) (fun _ _ => self.tileLatentMinWidth)
      (self.rows y.height) (self.columns y.width)
      fun a b => MaskSpatialTiledEncoder3D.encodeTile self.spatialCompressionRatio (self.sampleTile y a b) := by
    intro a _ b _
    obtain ⟨z, hz, hzlead, hzheight, hzwidth, -⟩ := encodeTile_sampled self (htime ▸ hylead) hnt a b
    exact ⟨z, hz, hzlead, hzheight, hzwidth⟩
  obtain ⟨st, hst, hrows, hcolumns, hstlead, hstheight, hstwidth, hblends⟩ :=
    tiledEncode_ok self (hyheight ▸ hheight) (hywidth ▸ hwidth) hmakes
  obtain ⟨out, hout, houtlead, houtpx⟩ := splitBatch_px hstlead
  refine ⟨out, ?_, houtlead, fun n hn m hm i hi j hj q hq c hc t ht => ?_⟩
  · rw [Tiling.encodeForTrain, Tiling.encodeTiles, if_neg (not_not.2 hframes), hy, ok_bind, hst, ok_bind, hlead]
    exact hout
  have hplace : ∀ {n i e S : ℕ}, n < e → i < S → n * S + i < e * S ∧ (n * S + i) / S = n ∧ (n * S + i) % S = i := by
    intro n i e S hn hi
    refine ⟨?_, ?_, ?_⟩
    · calc n * S + i < n * S + S := Nat.add_lt_add_left hi _
        _ = (n + 1) * S := (Nat.succ_mul n S).symm
        _ ≤ e * S := Nat.mul_le_mul_right S hn
    · rw [Nat.add_comm, Nat.add_mul_div_right _ _ (Nat.zero_lt_of_lt hi), Nat.div_eq_of_lt hi, Nat.zero_add]
    · rw [Nat.add_comm, Nat.add_mul_mod_self_right, Nat.mod_eq_of_lt hi]
  obtain ⟨hY, hYdiv, hYmod⟩ := hplace hn hi
  obtain ⟨hP, hPdiv, hPmod⟩ := hplace hm hj
  have hvalue := blends_at hblends [q, c, t] (f := fun Y P =>
    if self.spatialCompressionRatio * Y < x.height ∧ self.spatialCompressionRatio * P < x.width then
      x.px (self.spatialCompressionRatio * Y) (self.spatialCompressionRatio * P)
        [0, 0, q * self.tileSampleMinTime + maskFrame t c]
    else 0) (fun a _ b _ z hz i hi j hj => ?_)
    (Y := n * self.tileLatentStrideHeight + i) (P := m * self.tileLatentStrideWidth + j) ?_ ?_
  · rw [houtpx, ← hvalue, layOut]
    simp only [hstheight, hstwidth, hYdiv, hYmod, hPdiv, hPmod]
  · obtain ⟨z', hz', -, hzheight, hzwidth, hzpx⟩ := encodeTile_sampled self (htime ▸ hylead) hnt a b
    obtain rfl := Except.ok.inj (hz'.symm.trans hz)
    rw [hzheight] at hi
    rw [hzwidth] at hj
    rw [hzpx q hq c hc t ht i hi j hj, sampleTile_px self y a b hi hj, hyheight, hywidth, hypx, Nat.div_eq_of_lt hq,
      Nat.mod_eq_of_lt hq]
  · rw [layOut, hrows, hstheight, hyheight]
    exact hY
  · rw [layOut, hcolumns, hstwidth, hywidth]
    exact hP

end Encoded

/-! ## The mask of a call -/

variable {h w : ℕ} {V : Type}

/-- the mask that a call makes -/
theorem prepareLqAndMsk_msk {s : SkipConcatSession V} {input : Tensor UInt8} {T ch n h' w' : ℕ} {lq : Tensor ℚ}
    {msk : Tensor Bool} (hshape : input.shape = [T, ch, h, w])
    (hprep : s.prepareLqAndMsk input n = .ok (lq, msk, h', w')) : msk = repeatMask (keyframeMask T s.temporalSf n) h w := by
  rw [SkipConcatSession.prepareLqAndMsk, hshape] at hprep
  obtain ⟨_, -, hlq⟩ := bind_eq_ok.1 hprep
  exact (congrArg (fun r => r.2.1) (Except.ok.inj hlq)).symm

/-- the mask as an image of numbers -/
theorem ofMask_px {T sf n f i j : ℕ} (hf : f < n) :
    (ofMask (repeatMask (keyframeMask T sf n) h w)).px i j [0, 0, f] = if f < T * sf ∧ sf ∣ f then 1 else 0 := by
  have hget : (repeatMask (keyframeMask T sf n) h w).get [f, i, j] = true ↔ f < T * sf ∧ sf ∣ f := by
    have hmask : (keyframeMask T sf n)[f]? = some true ↔ f < n ∧ f < T * sf ∧ sf ∣ f := Session.keyframeMask_getElem?
    rw [and_iff_right hf] at hmask
    rw [← hmask]
    simp only [repeatMask, List.headD_cons, List.getD_eq_getElem?_getD]
    cases (keyframeMask T sf n)[f]? <;> simp
  exact if_congr hget rfl rfl

/-- every frame of a window is in some channel of some latent -/
theorem exists_maskFrame {f : ℕ} (hf : f < 20) : ∃ t < 8, ∃ c < 4, maskFrame t c = f := by
  by_cases h0 : f % 5 = 0
  · refine ⟨2 * (f / 5), by omega, 0, by decide, ?_⟩
    rw [maskFrame, codedFrame, if_pos (Nat.mul_mod_right 2 _)]
    omega
  · refine ⟨2 * (f / 5) + 1, by omega, f % 5 - 1, by omega, ?_⟩
    rw [maskFrame, codedFrame, if_neg (by omega)]
    omega

theorem maskFrame_lt {t c : ℕ} (ht : t < 8) (hc : c < 4) : maskFrame t c < 20 := by
  rw [maskFrame, codedFrame]
  split_ifs <;> omega

/-- **The mask in latents.** Of a window of 20 n frames, the transformer is given n tiles of latents. In each of them every
channel stands for one frame: within the frame's borders it is 1 if that is one of the keyframes and 0 if not, and beyond
them it is 0. No frame of the window is left out. -/
theorem mask_latents {M : TiledModel h w}
    (hM : M.mskEncode = MaskSpatialTiledEncoder3D.encodeTile tiling.spatialCompressionRatio) {s : SkipConcatSession V}
    (hs : Configured s) {input : Tensor UInt8} {T ch nt : ℕ} (hshape : input.shape = [T, ch, h, w]) (hT : 0 < T) (hh : 1 ≤ h)
    (hw : 1 ≤ w) (hnt : 0 < nt) :
    ∃ lq msk, s.prepareLqAndMsk input (nt * 20) = .ok (lq, msk, h, w) ∧ (M.precond.mskEncode msk).length = nt ∧
      (∀ q < nt, ∀ n m i j, ∀ c < 4, ∀ t < 8, (M.precond.mskEncode msk).getD q 0 n m i j c t =
        if (8 * (n.val * 12 + i.val) < h ∧ 8 * (m.val * 12 + j.val) < w) ∧ q * 20 + maskFrame t c < T * s.temporalSf ∧
            s.temporalSf ∣ q * 20 + maskFrame t c then 1 else 0) ∧
      ∀ f < nt * 20, ∃ q < nt, ∃ t < 8, ∃ c < 4, q * 20 + maskFrame t c = f := by
  obtain ⟨lq, msk, hprep, -, hmsk⟩ := prepareLqAndMsk_shape hs hshape hT (n := nt * 20) (by omega)
  have hmask := prepareLqAndMsk_msk hshape hprep
  have hlead : (ofMask msk).lead = [1, 1, nt * tiling.tileSampleMinTime] := by
    rw [ofMask, Tensor.dim0, hmsk]
    rfl
  have hheight : (ofMask msk).height = h := by
    rw [ofMask, hmsk]
    rfl
  have hwidth : (ofMask msk).width = w := by
    rw [ofMask, hmsk]
    rfl
  obtain ⟨st, hst, hstlead, hpx⟩ := encodeForTrain_mask tiling (k := 4) rfl (by decide) hnt hlead (by omega) (by omega)
  have hencode : M.precond.mskEncode msk = latents st := by
    change encoded (tiling.encodeForTrain M.mskEncode (ofMask msk)) = _
    rw [hM, hst]
    rfl
  have hlen : (latents st : List (Latent h w)).length = nt := by
    rw [latents, List.length_map, List.length_range, hstlead]
    rfl
  refine ⟨lq, msk, hprep, by rw [hencode, hlen], fun q hq n m i j c hc t ht => ?_, fun f hf => ?_⟩
  · have hentry : (latents st : List (Latent h w)).getD q 0 n m i j c t = st.px n m i j [0, q, c, t] := by
      have hcount : st.lead.getD 1 0 = nt := by rw [hstlead]; rfl
      rw [latents, hcount, List.getD_eq_getElem?_getD, List.getElem?_map, List.getElem?_range hq]
      rfl
    have hframe : q * 20 + maskFrame t c < nt * 20 := by
      have hlt := maskFrame_lt ht hc
      omega
    rw [hencode, hentry, hpx n (by rw [hheight]; exact n.isLt) m (by rw [hwidth]; exact m.isLt)
      i i.isLt j j.isLt q hq c hc t ht,
      hheight, hwidth, hmask]
    change (if 8 * (n.val * 12 + i.val) < h ∧ 8 * (m.val * 12 + j.val) < w then
      (ofMask (repeatMask (keyframeMask T s.temporalSf (nt * 20)) h w)).px _ _ [0, 0, q * 20 + maskFrame t c] else 0) = _
    rw [ofMask_px hframe]
    exact (ite_and _ _ _ _).symm
  · obtain ⟨t, ht, c, hc, hframe⟩ := exists_maskFrame (Nat.mod_lt f (by decide : 0 < 20))
    exact ⟨f / 20, Nat.div_lt_of_lt_mul (by omega), t, ht, c, hc, by rw [hframe, Nat.div_add_mod']⟩

/-- frame 4 of a call with 4 keyframes, one out of 4 frames: in channel 3 of latent 1, at a pixel of the second row of tiles -/
theorem mask_latents_fourKeyframes :
    ∃ lq msk, (SkipConcatSession.init ℚ ⟨4, 1⟩).prepareLqAndMsk ⟨[4, 3, 100, 30], fun _ => 0⟩ (3 * 20) =
        .ok (lq, msk, 100, 30) ∧
      (({ zeros 100 30 with mskEncode := MaskSpatialTiledEncoder3D.encodeTile 8 } : TiledModel 100 30).precond.mskEncode
        msk).getD 0 0 ⟨1, by decide⟩ ⟨0, by decide⟩ ⟨0, by decide⟩ ⟨2, by decide⟩ 3 1 = 1 := by
  obtain ⟨lq, msk, hprep, -, hlatents, -⟩ := @mask_latents 100 30 ℚ
    { zeros 100 30 with mskEncode := MaskSpatialTiledEncoder3D.encodeTile 8 } rfl _ (configured_init ℚ ⟨4, 1⟩)
    ⟨[4, 3, 100, 30], fun _ => 0⟩ 4 3 3 rfl (by decide) (by decide) (by decide) (by decide)
  exact ⟨lq, msk, hprep, (hlatents 0 (by decide) _ _ _ _ 3 (by decide) 1 (by decide)).trans (if_pos (by decide))⟩

end Viduce.TiledSession
