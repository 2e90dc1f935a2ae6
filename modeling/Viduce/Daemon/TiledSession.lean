/-
The session with spatially tiled encoders and a spatially tiled VAE, all of the default geometry: the tensors of `Tiled`
under the lists of temporal tiles of `SessionRunner`. A clip of h by w frames is cut into ⌈h / 96⌉ rows and ⌈w / 96⌉
columns of spatial tiles, which are encoded to 12 by 12 latents each; laid out, these are decoded to 8 times their size
and cut back to h by w.

- `precond_ok`: the model meets the premises of `ChunkStep` for three-channel frames of h by w: the encoders make three
  temporal tiles of a 60-frame clip, and the VAE makes 20 frames of each.
- `frames_covered`: the frames it makes reach as far as those of the clip, so neither pad of `vae_decode` is negative.
- `chunk_shape`: every chunk that returns has frames of h by w, in every state of a session.
-/
import Mathlib.Tactic
import Viduce.Daemon.ChunkStep
import Viduce.Daemon.Tiled

namespace Viduce.TiledSession

open Viduce.Chunks Viduce.SessionRunner Viduce.Tiled Viduce.Run

/-! ## The model -/

/-- the geometry of the encoders and the VAE -/
abbrev tiling : Tiling := Tiling.default

/-- a temporal tile of the latents of h by w frames: row and column of the spatial tile, row and column in it, channel,
frame -/
abbrev Latent (h w : ℕ) : Type :=
  Fin (tiling.rows h) → Fin (tiling.columns w) → Fin tiling.tileLatentStrideHeight → Fin tiling.tileLatentStrideWidth →
    ℕ → ℕ → ℚ

/-- `_decode` of a VAE of one of the two classes -/
inductive TiledVae where
  | spatialTiledEncoder3D (decode : Image Pixel → Except PyErr (Image Pixel))
  | spatialTiledConditionEncoder3D (decode : Image Pixel → Image Pixel → Image Pixel → Except PyErr (Image Pixel))

/-- the networks: `_encode` of the two encoders, the transformer, `_decode` of the VAE, and the sizes of their latents -/
structure TiledModel (h w : ℕ) where
  /-- channels of the latents of a temporal tile -/
  channels : ℕ
  /-- frames of the latents of a temporal tile -/
  frames : ℕ
  lqEncode : Image Pixel → Except PyErr (Image Pixel)
  mskEncode : Image Pixel → Except PyErr (Image Pixel)
  predictV : List (Latent h w) → List ℚ → List (Latent h w) → List (Latent h w) → List (Latent h w)
  vae : TiledVae

/-- `rearrange(x, "t c h w -> 1 c t h w")` -/
def ofClip (x : Tensor ℚ) : Image Pixel :=
  ⟨[1, x.shape.getD 1 0, x.dim0], x.shape.getD 2 0, x.shape.getD 3 0, fun i j idx =>
    x.get [idx.getD 2 0, idx.getD 1 0, i, j]⟩

/-- the mask, with its batch and channel axes and as numbers -/
def ofMask (msk : Tensor Bool) : Image Pixel :=
  ⟨[1, 1, msk.dim0], msk.shape.getD 1 0, msk.shape.getD 2 0, fun i j idx => if msk.get [idx.getD 2 0, i, j] then 1 else 0⟩

/-- `rearrange(x, "1 c t h w -> t c h w")` -/
def toClip (x : Image Pixel) : Tensor ℚ :=
  ⟨[x.lead.getD 2 0, x.lead.getD 1 0, x.height, x.width], fun idx =>
    x.px (idx.getD 2 0) (idx.getD 3 0) [0, idx.getD 1 0, idx.headD 0]⟩

/-- `rearrange(x, "b c (nt t) h w -> b nt c t h w", nt=nt)`; `vae_decode` has checked that the frames split evenly -/
def splitTiles (nt : ℕ) (x : Image Pixel) : Image Pixel :=
  let t := x.lead.getD 2 0 / nt
  ⟨[x.lead.headD 0, nt, x.lead.getD 1 0, t], x.height, x.width, fun i j idx =>
    x.px i j [idx.headD 0, idx.getD 2 0, idx.getD 1 0 * t + idx.getD 3 0]⟩

variable {h w : ℕ}

/-- the temporal tiles of what `encode(x, for_train=True)` returns -/
def latents (st : Stack Pixel) : List (Latent h w) :=
  (List.range (st.lead.getD 1 0)).map fun k n m i j c t => st.px n m i j [0, k, c, t]

/-- `rearrange(xt, "1 nt nh nw c t h w -> 1 nt c t (nh h) (nw w)")` -/
def layLatents (channels frames : ℕ) (xt : List (Latent h w)) : Image Pixel where
  lead := [1, xt.length, channels, frames]
  height := tiling.rows h * tiling.tileLatentStrideHeight
  width := tiling.columns w * tiling.tileLatentStrideWidth
  px i j idx :=
    if hij : i / tiling.tileLatentStrideHeight < tiling.rows h ∧ j / tiling.tileLatentStrideWidth < tiling.columns w then
      xt.getD (idx.getD 1 0) 0 ⟨_, hij.1⟩ ⟨_, hij.2⟩ ⟨_, Nat.mod_lt i tiling.latentStrideHeight_pos⟩
        ⟨_, Nat.mod_lt j tiling.latentStrideWidth_pos⟩ (idx.getD 2 0) (idx.getD 3 0)
    else 0

/-- the temporal tiles, none if the encoder raised -/
def encoded (r : Except PyErr (Stack Pixel)) : List (Latent h w) :=
  match r with
  | .ok st => latents st
  | .error _ => []

/-- the clip, one without axes if the VAE raised -/
def decoded (r : Except PyErr (Image Pixel)) : Tensor ℚ :=
  match r with
  | .ok x => toClip x
  | .error _ => ⟨[], fun _ => 0⟩

/-- the loaded model, as the session sees it -/
def TiledModel.precond (M : TiledModel h w) : Precond (Latent h w) where
  lqEncode lq := encoded (tiling.encodeForTrain M.lqEncode (ofClip lq))
  mskEncode msk := encoded (tiling.encodeForTrain M.mskEncode (ofMask msk))
  predictV := M.predictV
  vae := match M.vae with
    | .spatialTiledEncoder3D decode => .spatialTiledEncoder3D fun xt =>
        decoded (SpatialTiledEncoder3D.decode tiling decode (layLatents M.channels M.frames xt))
    | .spatialTiledConditionEncoder3D decode =>
        .spatialTiledConditionEncoder3D tiling.spatialCompressionRatio fun xt lq msk =>
          decoded (SpatialTiledConditionEncoder3D.decode tiling decode (layLatents M.channels M.frames xt)
            (splitTiles xt.length (ofClip lq)) (splitTiles xt.length (ofMask msk)))
  latentSize _ :=
    (tiling.rows h * tiling.tileLatentStrideHeight, tiling.columns w * tiling.tileLatentStrideWidth)

/-! ## Premises -/

/-- n temporal tiles of latents are decoded to 20 frames of three channels each, 8 times as high and wide -/
def Decodes (n : ℕ) (y : Image Pixel) (r : Except PyErr (Image Pixel)) : Prop :=
  ∃ x, r = .ok x ∧ x.lead = [n, 3, 20] ∧ Scaled tiling.spatialCompressionRatio y x

/-- the contract of `_decode`, on tiles of latents of any extent, with windows of the clip and the mask that fit -/
def TiledVae.Ok (channels frames : ℕ) : TiledVae → Prop
  | .spatialTiledEncoder3D decode => ∀ n (y : Image Pixel), y.lead = [n, channels, frames] → Decodes n y (decode y)
  | .spatialTiledConditionEncoder3D decode => ∀ n (y cond msk : Image Pixel), y.lead = [n, channels, frames] →
      cond.lead = [n, 3, 20] → msk.lead = [n, 1, 20] → Scaled tiling.spatialCompressionRatio y cond →
      Scaled tiling.spatialCompressionRatio y msk → Decodes n y (decode y cond msk)

/-- the contract of `_encode` on tiles of the tile size with this many channels: 20 frames go to so many latent frames -/
def Encodes (channels channels' frames' : ℕ) (encode : Image Pixel → Except PyErr (Image Pixel)) : Prop :=
  ∀ n (x : Image Pixel), x.lead = [n, channels, tiling.tileSampleMinTime] → x.height = tiling.tileSampleMinHeight →
    x.width = tiling.tileSampleMinWidth → ∃ z, encode x = .ok z ∧ z.lead = [n, channels', frames'] ∧
      z.height = tiling.tileLatentMinHeight ∧ z.width = tiling.tileLatentMinWidth

structure TiledModel.Ok (M : TiledModel h w) : Prop where
  lq : Encodes 3 M.channels M.frames M.lqEncode
  msk : ∃ channels, Encodes 1 channels M.frames M.mskEncode
  predict : ∀ xt t y m, (M.predictV xt t y m).length = xt.length
  vae : M.vae.Ok M.channels M.frames

/-! ## Encoding -/

/-- an encoder makes three temporal tiles of a 60-frame clip -/
theorem encoded_length {encode : Image Pixel → Except PyErr (Image Pixel)} {channels channels' frames' : ℕ}
    (hencode : Encodes channels channels' frames' encode) {x : Image Pixel} (hlead : x.lead = [1, channels, 60])
    (hheight : 1 ≤ x.height) (hwidth : 1 ≤ x.width) :
    (encoded (tiling.encodeForTrain encode x) : List (Latent h w)).length = 3 := by
  have hframes : x.lead = [1, channels, 3 * tiling.tileSampleMinTime] := hlead
  obtain ⟨st, hst, -, -, hstlead, -⟩ := encodeForTrain_ok tiling (by decide) hframes hheight hwidth (hencode 3)
  rw [hst, encoded, latents, List.length_map, List.length_range, hstlead]
  rfl

variable {M : TiledModel h w}

theorem lq_tiles (hM : M.Ok) (hh : 1 ≤ h) (hw : 1 ≤ w) {lq : Tensor ℚ} (hlq : lq.shape = [60, 3, h, w]) :
    (M.precond.lqEncode lq).length = 3 := by
  refine encoded_length hM.lq ?_ ?_ ?_
  · rw [ofClip, Tensor.dim0, hlq]
    rfl
  · rw [ofClip, hlq]
    exact hh
  · rw [ofClip, hlq]
    exact hw

theorem msk_tiles (hM : M.Ok) (hh : 1 ≤ h) (hw : 1 ≤ w) {msk : Tensor Bool} (hmsk : msk.shape = [60, h, w]) :
    (M.precond.mskEncode msk).length = 3 := by
  obtain ⟨channels, hencode⟩ := hM.msk
  refine encoded_length hencode ?_ ?_ ?_
  · rw [ofMask, Tensor.dim0, hmsk]
    rfl
  · rw [ofMask, hmsk]
    exact hh
  · rw [ofMask, hmsk]
    exact hw

theorem encodes (hM : M.Ok) (hh : 1 ≤ h) (hw : 1 ≤ w) : M.precond.Encodes [3, h, w] :=
  ⟨fun _ hlq => lq_tiles hM hh hw hlq, hM.predict⟩

/-! ## Decoding -/

/-- the decoded frames reach as far as the frames of the clip -/
theorem frames_covered (h w : ℕ) :
    h ≤ tiling.rows h * tiling.tileLatentStrideHeight * tiling.spatialCompressionRatio ∧
      w ≤ tiling.columns w * tiling.tileLatentStrideWidth * tiling.spatialCompressionRatio := by
  refine ⟨?_, ?_⟩
  · calc h ≤ tiling.rows h * tiling.tileSampleStrideHeight := Overlap.le_count_mul tiling.strideHeight_pos h
      _ = tiling.rows h * tiling.tileLatentStrideHeight * tiling.spatialCompressionRatio := by
        rw [← tiling.ratio_mul_strideHeight, Nat.mul_assoc, Nat.mul_comm tiling.spatialCompressionRatio]
  · calc w ≤ tiling.columns w * tiling.tileSampleStrideWidth := Overlap.le_count_mul tiling.strideWidth_pos w
      _ = tiling.columns w * tiling.tileLatentStrideWidth * tiling.spatialCompressionRatio := by
        rw [← tiling.ratio_mul_strideWidth, Nat.mul_assoc, Nat.mul_comm tiling.spatialCompressionRatio]

/-- decoded frames of 8 times the size of the laid out latents -/
theorem decoded_shape {n channels frames : ℕ} {xt : List (Latent h w)} {r : Except PyErr (Image Pixel)} {out : Image Pixel}
    (hr : r = .ok out) (hlead : out.lead = [1, 3, n * 20])
    (hsize : Scaled tiling.spatialCompressionRatio (layLatents channels frames xt) out) :
    (decoded r).shape = [20 * n, 3, tiling.rows h * tiling.tileLatentStrideHeight * tiling.spatialCompressionRatio,
      tiling.columns w * tiling.tileLatentStrideWidth * tiling.spatialCompressionRatio] := by
  have hheight : out.height = tiling.rows h * tiling.tileLatentStrideHeight * tiling.spatialCompressionRatio :=
    calc out.height = tiling.spatialCompressionRatio * (tiling.rows h * tiling.tileLatentStrideHeight) := hsize.1
      _ = tiling.rows h * tiling.tileLatentStrideHeight * tiling.spatialCompressionRatio := Nat.mul_comm _ _
  have hwidth : out.width = tiling.columns w * tiling.tileLatentStrideWidth * tiling.spatialCompressionRatio :=
    calc out.width = tiling.spatialCompressionRatio * (tiling.columns w * tiling.tileLatentStrideWidth) := hsize.2
      _ = tiling.columns w * tiling.tileLatentStrideWidth * tiling.spatialCompressionRatio := Nat.mul_comm _ _
  rw [hr, decoded, toClip, hlead, hheight, hwidth, Nat.mul_comm 20]
  rfl

/-- the clip that goes to the VAE, 20 frames to a temporal tile -/
theorem lqTiles_shape {n H W : ℕ} (hn : 0 < n) {lq : Tensor ℚ} (hlq : lq.shape = [20 * n, 3, H, W]) :
    (splitTiles n (ofClip lq)).lead = [1, n, 3, 20] ∧ (splitTiles n (ofClip lq)).height = H ∧
      (splitTiles n (ofClip lq)).width = W := by
  rw [splitTiles, ofClip, Tensor.dim0, hlq]
  show [1, n, 3, 20 * n / n] = _ ∧ _
  rw [Nat.mul_div_cancel 20 hn]
  exact ⟨rfl, rfl, rfl⟩

/-- the mask that goes with it -/
theorem mskTiles_shape {n H W : ℕ} (hn : 0 < n) {msk : Tensor Bool} (hmsk : msk.shape = [20 * n, H, W]) :
    (splitTiles n (ofMask msk)).lead = [1, n, 1, 20] ∧ (splitTiles n (ofMask msk)).height = H ∧
      (splitTiles n (ofMask msk)).width = W := by
  rw [splitTiles, ofMask, Tensor.dim0, hmsk]
  show [1, n, 1, 20 * n / n] = _ ∧ _
  rw [Nat.mul_div_cancel 20 hn]
  exact ⟨rfl, rfl, rfl⟩

/-- **The contract.** The model meets the premises of the session's results, for three-channel frames of h by w: the VAE
makes 20 frames of 8 times the laid out latents of each temporal tile. -/
theorem precond_ok (hM : M.Ok) (hh : 1 ≤ h) (hw : 1 ≤ w) : M.precond.Ok [3, h, w] 3
    (tiling.rows h * tiling.tileLatentStrideHeight * tiling.spatialCompressionRatio)
    (tiling.columns w * tiling.tileLatentStrideWidth * tiling.spatialCompressionRatio) := by
  refine ⟨encodes hM hh hw, ?_⟩
  have hheight : 1 ≤ tiling.rows h * tiling.tileLatentStrideHeight :=
    Nat.mul_pos (Overlap.count_pos tiling.strideHeight_pos hh) tiling.latentStrideHeight_pos
  have hwidth : 1 ≤ tiling.columns w * tiling.tileLatentStrideWidth :=
    Nat.mul_pos (Overlap.count_pos tiling.strideWidth_pos hw) tiling.latentStrideWidth_pos
  have hvae := hM.vae
  rw [TiledModel.precond]
  cases hclass : M.vae with
  | spatialTiledEncoder3D decode =>
    rw [hclass] at hvae
    intro xt _
    obtain ⟨out, hout, hlead, hsize⟩ := encoder3D_decode_ok tiling
      (z := layLatents M.channels M.frames xt) rfl hheight hwidth (hvae xt.length)
    exact decoded_shape hout hlead hsize
  | spatialTiledConditionEncoder3D decode =>
    rw [hclass] at hvae
    intro v xt lq msk hlq hmsk
    obtain ⟨hlqlead, hlqheight, hlqwidth⟩ := lqTiles_shape (Nat.succ_pos xt.length) hlq
    obtain ⟨hmsklead, hmskheight, hmskwidth⟩ := mskTiles_shape (Nat.succ_pos xt.length) hmsk
    obtain ⟨out, hout, hlead, hsize⟩ := conditionEncoder3D_decode_ok tiling
      (z := layLatents M.channels M.frames (v :: xt)) rfl hlqlead hmsklead hheight hwidth
      ⟨hlqheight.trans (Nat.mul_comm _ _), hlqwidth.trans (Nat.mul_comm _ _)⟩
      ⟨hmskheight.trans (Nat.mul_comm _ _), hmskwidth.trans (Nat.mul_comm _ _)⟩ (hvae (xt.length + 1))
    exact decoded_shape hout hlead hsize

/-- **Decoding.** The VAE makes 20 frames of h by w of each temporal tile. -/
theorem decode_frames (hM : M.Ok) (hh : 1 ≤ h) (hw : 1 ≤ w) {g : Denoised (Latent h w)} {n : ℕ} (hg : g.Fits n h w)
    (htail : g.lqSub.shape.tail = [3, h, w]) (hn : 0 < n) {env : Env (Latent h w)} (hv : env.fault .vaeDecode = none) :
    ∃ f, g.decode M.precond env = .ok f ∧ f.shape = [20 * n, 3, h, w] := by
  obtain ⟨f, hf, hshape⟩ := decode_shape (precond_ok hM hh hw) hg htail hn hv
  obtain ⟨hcover, hcover'⟩ := frames_covered h w
  rw [Nat.min_eq_left hcover, Nat.min_eq_left hcover'] at hshape
  exact ⟨f, hf, hshape⟩

/-! ## Sessions -/

/-- at least one frame, with three channels -/
def Frames (x : Tensor UInt8) (h w : ℕ) : Prop := ∃ t, 1 ≤ t ∧ x.shape = [t, 3, h, w]

/-- a session after chunk calls, some of which may have failed -/
def reached (M : TiledModel h w) (params : VfiParameters) (calls : List (ChunkCall (Latent h w))) :
    SkipConcatSession (Latent h w) :=
  run (SessionRunner.step M.precond) (SkipConcatSession.init (Latent h w) params) calls

theorem reached_wf (hM : M.Ok) (hh : 1 ≤ h) (hw : 1 ≤ w) (params : VfiParameters) {calls : List (ChunkCall (Latent h w))}
    (hcalls : ∀ c ∈ calls, Frames c.input h w) : Wf (reached M params calls) := by
  have hframes : Along (SessionRunner.step M.precond) (fun _ c => Frames c.input h w)
      (SkipConcatSession.init (Latent h w) params) calls :=
    fun pre c post e => hcalls c (e ▸ List.mem_append_right pre List.mem_cons_self)
  refine run_inv_of (fun s c hs hc => ?_) (wf_init params) hframes
  obtain ⟨t, ht, hshape⟩ := hc
  have hencodes : M.precond.Encodes c.input.shape.tail := by rw [hshape]; exact encodes hM hh hw
  exact step_wf hs hencodes ⟨t, 3, hshape, ht⟩

/-- what a chunk hands to the VAE fits its latents: 20 frames of the clip and the mask to a temporal tile, and no pad is
negative -/
structure HandsOver (M : TiledModel h w) (g : Denoised (Latent h w)) : Prop where
  lq : g.lqSub.dim0 = 20 * g.xt.length
  msk : g.mskSub.dim0 = 20 * g.xt.length
  padHeight : ∀ v, g.lqSub.shape.getD 2 0 ≤ (M.precond.latentSize v).1 * tiling.spatialCompressionRatio
  padWidth : ∀ v, g.lqSub.shape.getD 3 0 ≤ (M.precond.latentSize v).2 * tiling.spatialCompressionRatio

/-- **The shape of a chunk.** In every state of a session over frames of h by w, a chunk in which nothing raises encodes
its clip and its mask to three temporal tiles, hands what fits to the VAE, and returns 20 frames of h by w with three
channels for each temporal tile of its role. -/
theorem chunk_shape (hM : M.Ok) (hh : 1 ≤ h) (hw : 1 ≤ w) (params : VfiParameters)
    {calls : List (ChunkCall (Latent h w))} (hcalls : ∀ c ∈ calls, Frames c.input h w) {c : ChunkCall (Latent h w)}
    (hinput : Frames c.input h w) (hc : Commits (reached M params calls) c) (hv : c.env.fault .vaeDecode = none) :
    let s := reached M params calls
    ∃ p g f s', s.prelude M.precond c.env c.input = .ok p ∧ p.y.length = 3 ∧ p.m.length = 3 ∧
      s.denoise M.precond c.env c.input (role s c) = .ok g ∧ HandsOver M g ∧
      (interpolateChunk M.precond c).run s = (.ok ⟨role s c, tag s.calls g.xt, f⟩, s') ∧
      f.shape = [20 * tiles (role s c) s.toLatents, 3, h, w] := by
  intro s
  have hs : Wf s := reached_wf hM hh hw params hcalls
  obtain ⟨t, ht, hshape⟩ := hinput
  have hencodes := encodes hM hh hw
  obtain ⟨p, hp, hy, -, hmsk, -, -, -, hm⟩ := prelude_ok hencodes hs.config hc.1.lq hc.1.msk hshape ht
  rcases step_cases hencodes hs hshape ht with ⟨-, g, hg, hfits, htail, hrun⟩ | ⟨hnc, -⟩
  · obtain ⟨f, hf, hfshape⟩ := decode_frames hM hh hw hfits htail (tiles_pos _ _) hv
    obtain ⟨hcover, hcover'⟩ := frames_covered h w
    refine ⟨p, g, f, _, hp, hy, by rw [hm]; exact msk_tiles hM hh hw hmsk, hg, ?_, by rw [hrun, hf]; rfl, hfshape⟩
    refine ⟨by rw [hfits.lq, hfits.xt], by rw [hfits.msk, hfits.xt], fun v => ?_, fun v => ?_⟩
    · rw [Tensor.shape_of_tail htail]
      exact hcover
    · rw [Tensor.shape_of_tail htail]
      exact hcover'
  · exact absurd hc hnc

/-- a model that returns zeros of the sizes it has to -/
def zeros (h w : ℕ) : TiledModel h w where
  channels := 16
  frames := 8
  lqEncode x := .ok ⟨[x.lead.headD 0, 16, 8], x.height / 8, x.width / 8, fun _ _ _ => 0⟩
  mskEncode x := .ok ⟨[x.lead.headD 0, 128, 8], x.height / 8, x.width / 8, fun _ _ _ => 0⟩
  predictV xt _ _ _ := xt
  vae := .spatialTiledConditionEncoder3D fun z _ _ =>
    .ok ⟨[z.lead.headD 0, 3, 20], 8 * z.height, 8 * z.width, fun _ _ _ => 0⟩

theorem zeros_ok (h w : ℕ) : (zeros h w).Ok where
  lq n x hlead hheight hwidth := ⟨_, rfl, by rw [hlead]; rfl, by rw [hheight]; rfl, by rw [hwidth]; rfl⟩
  msk := ⟨128, fun n x hlead hheight hwidth => ⟨_, rfl, by rw [hlead]; rfl, by rw [hheight]; rfl, by rw [hwidth]; rfl⟩⟩
  predict _ _ _ _ := rfl
  vae n y cond msk hlead _ _ _ _ := ⟨_, rfl, by rw [hlead]; rfl, rfl, rfl⟩

/-- a call in which nothing raises, with t frames -/
def quietCall (h w chunkIndex t : ℕ) (isLast : Bool) : ChunkCall (Latent h w) :=
  ⟨chunkIndex, ⟨[t, 3, h, w], fun _ => 0⟩, isLast, ⟨fun _ => none, fun _ _ => 0⟩⟩

/-- after a FIRST of 15 frames, a STANDALONE of 4 frames of 100 by 30 returns 60 frames of 100 by 30 -/
theorem standalone_after_first :
    ∃ f s', (interpolateChunk (zeros 100 30).precond (quietCall 100 30 0 4 true)).run
        (reached (zeros 100 30) ⟨4, 1⟩ [quietCall 100 30 0 15 false]) = (.ok f, s') ∧
      f.frames.shape = [60, 3, 100, 30] := by
  have hfirst : ∀ c ∈ [quietCall 100 30 0 15 false], Frames c.input 100 30 := by
    intro c hc
    rw [List.mem_singleton.1 hc]
    exact ⟨15, by decide, rfl⟩
  have hframes : Frames (quietCall 100 30 0 4 true).input 100 30 := ⟨4, by decide, rfl⟩
  obtain ⟨p, g, f, s', -, -, -, -, -, hrun, hshape⟩ := chunk_shape (zeros_ok 100 30) (by decide) (by decide) ⟨4, 1⟩ hfirst
    hframes ⟨⟨rfl, rfl, fun _ _ => rfl⟩, rfl⟩ rfl
  exact ⟨_, s', hrun, hshape⟩

end Viduce.TiledSession
