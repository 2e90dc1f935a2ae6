/-
`WanVAE_` (`models/vae2_1.py`): the two networks with their caches, and encoding and decoding of whole clips.

`encode` takes 1, 4, 4, ... frames at a time and `decode` one frame of latents at a time, through one cache each; both clear
the caches before and after. Frames behind the last whole chunk of 4 are left out.

- `WanVAE.encodeBy_run`, `WanVAE.decodeBy_run`: whatever the caches held before and however long the chunks are, the outcome
  is what the networks give on the whole clip, in the expected number of frames and of the expected size, and the caches
  are left empty.
- `calls_any_chunks`: each call of any sequence of them, also behind calls that raised, gives what it gives on its own, and
  in chunks of any other length.
- `decode_prefix`: what is decoded from the first latents does not depend on later ones.
- `encode_decode_size`: what 1 + 4 n frames are encoded to is decoded to as many frames exactly if the decoder doubles time
  as often as the encoder halves it.
- `encoder_plain_iff`, `decoder_plain_iff`: when the networks give the same without their caches.
-/
import Mathlib.Tactic
import Viduce.Models.CausalVae

namespace Viduce.Vae

open Viduce.Streaming
open Feature

variable {F : Type} [Feature F]

structure WanVAE (F : Type) [Feature F] where
  encoder : Encoder3d F
  conv1 : CausalConv3d F
  conv2 : CausalConv3d F
  decoder : Decoder3d F

structure VaeWeights (F : Type) [Feature F] where
  encoder : NetWeights F
  conv1 : (i o k : ℕ) → Kernel F i o k
  conv2 : (i o k : ℕ) → Kernel F i o k
  decoder : NetWeights F

/-- the argument `scale`: what a frame of latents is shifted and scaled by -/
structure Scale (F : Type) [Feature F] (z : ℕ) where
  /-- `(mu - scale[0]) * scale[1]` -/
  apply : FrameFn F z z 0 id
  /-- `z / scale[1] + scale[0]` -/
  undo : FrameFn F z z 0 id

/-- the attributes that hold the caches -/
structure Caches (F : Type) where
  convNum : ℕ
  convIdx : ℕ
  featMap : List (Option (CacheItem F))
  encConvNum : ℕ
  encConvIdx : ℕ
  encFeatMap : List (Option (CacheItem F))

namespace Caches

/-- runs the decoder on its cache -/
def decoding {α : Type} (x : Py (Slots (CacheItem F)) α) : Py (Caches F) α :=
  Py.zoom (fun s => ⟨s.featMap, s.convIdx⟩) (fun c s => { s with featMap := c.items, convIdx := c.idx }) x

/-- runs the encoder on its cache -/
def encoding {α : Type} (x : Py (Slots (CacheItem F)) α) : Py (Caches F) α :=
  Py.zoom (fun s => ⟨s.encFeatMap, s.encConvIdx⟩) (fun c s => { s with encFeatMap := c.items, encConvIdx := c.idx }) x

end Caches

/-- the arguments of the encoder; it has two channels for each one of the latents -/
def NetConfig.forEncoder (cfg : NetConfig) : NetConfig := { cfg with zDim := cfg.zDim * 2 }

/-- the arguments of the decoder, with `temperal_downsample[::-1]` -/
def NetConfig.forDecoder (cfg : NetConfig) : NetConfig := { cfg with temperal := cfg.temperal.reverse }

namespace WanVAE

def init (cfg : NetConfig) (weights : VaeWeights F) : Except PyErr (WanVAE F) := do
  let encoder ← Encoder3d.init cfg.forEncoder weights.encoder
  let decoder ← Decoder3d.init cfg.forDecoder weights.decoder
  pure
    { encoder := encoder
      conv1 := ⟨cfg.zDim * 2, cfg.zDim * 2, 1, 1, 0, weights.conv1 (cfg.zDim * 2) (cfg.zDim * 2) 1⟩
      conv2 := ⟨cfg.zDim, cfg.zDim, 1, 1, 0, weights.conv2 cfg.zDim cfg.zDim 1⟩
      decoder := decoder }

/-- the caches `clear_cache` leaves -/
def cleared (self : WanVAE F) : Caches F where
  convNum := self.decoder.countConv3d
  convIdx := 0
  featMap := List.replicate self.decoder.countConv3d none
  encConvNum := self.encoder.countConv3d
  encConvIdx := 0
  encFeatMap := List.replicate self.encoder.countConv3d none

def clearCache (self : WanVAE F) : Py (Caches F) Unit := Py.modify fun _ => self.cleared

/-- chunk i of the clip to encode: the first frame, or 4 frames -/
def encodeChunk (x : List F) (i : ℕ) : List F := if i = 0 then x.take 1 else (x.drop (1 + 4 * (i - 1))).take 4

/-- `out` before the first iteration of a loop -/
def unbound : PyErr := ⟨.other, "cannot access local variable 'out'"⟩

variable {z : ℕ}

def encode (self : WanVAE F) (scale : Scale F z) (x : List F) : Py (Caches F) (List F) := do
  self.clearCache
  let iters := (1 + ((x.length : ℤ) - 1) / 4).toNat
  let out ← Caches.encoding (feed self.encoder.cached cat (encodeChunk x) iters)
  match out with
  | none => Py.raise unbound
  | some out => do
    let out ← Py.ofExcept (self.conv1.forward out none)
    let mu ← Py.ofExcept (scale.apply.forward (out.map fun a => (halves a).1))
    self.clearCache
    pure mu

/-- frame i of the latents, as a clip -/
def decodeChunk (x : List F) (i : ℕ) : List F := (x.drop i).take 1

def decode (self : WanVAE F) (scale : Scale F z) (x : List F) : Py (Caches F) (List F) := do
  self.clearCache
  let x ← Py.ofExcept (scale.undo.forward x)
  let iters := x.length
  let x ← Py.ofExcept (self.conv2.forward x none)
  let out ← Caches.decoding (feed self.decoder.cached cat (decodeChunk x) iters)
  match out with
  | none => Py.raise unbound
  | some out => do
    self.clearCache
    pure out

/-- chunk i of a clip that is cut into its first frame and then k frames at a time -/
def cut (k : ℕ) (x : List F) (i : ℕ) : List F := if i = 0 then x.take 1 else (x.drop (1 + k * (i - 1))).take k

/-- `encode` with k frames at a time in place of 4 -/
def encodeBy (self : WanVAE F) (scale : Scale F z) (k : ℕ) (x : List F) : Py (Caches F) (List F) := do
  self.clearCache
  let iters := (1 + ((x.length : ℤ) - 1) / k).toNat
  let out ← Caches.encoding (feed self.encoder.cached cat (cut k x) iters)
  match out with
  | none => Py.raise unbound
  | some out => do
    let out ← Py.ofExcept (self.conv1.forward out none)
    let mu ← Py.ofExcept (scale.apply.forward (out.map fun a => (halves a).1))
    self.clearCache
    pure mu

/-- `decode` with the first latent and then k latents at a time in place of one -/
def decodeBy (self : WanVAE F) (scale : Scale F z) (k : ℕ) (x : List F) : Py (Caches F) (List F) := do
  self.clearCache
  let x ← Py.ofExcept (scale.undo.forward x)
  let iters := (1 + ((x.length : ℤ) - 1) / k).toNat
  let x ← Py.ofExcept (self.conv2.forward x none)
  let out ← Caches.decoding (feed self.decoder.cached cat (cut k x) iters)
  match out with
  | none => Py.raise unbound
  | some out => do
    self.clearCache
    pure out

/-- what encoding comes to, as one pass over the whole clip -/
def encodeWhole (self : WanVAE F) (scale : Scale F z) (x : List F) : List F :=
  (self.conv1.whole (self.encoder.whole x)).map fun a => scale.apply.apply (halves a).1

/-- what decoding comes to, as one pass over all latents -/
def decodeWhole (self : WanVAE F) (scale : Scale F z) (x : List F) : List F :=
  self.decoder.whole (self.conv2.whole (x.map scale.undo.apply))

end WanVAE

/-! ## Frames of numbers -/

/-- a frame with what it shows: the number at a channel, a row and a column -/
structure Pixels where
  dim : Dim
  value : ℕ → ℕ → ℕ → ℚ

/-- one number everywhere -/
def Pixels.fill (d : Dim) (q : ℚ) : Pixels := ⟨d, fun _ _ _ => q⟩

instance : Feature Pixels where
  dim := Pixels.dim
  zeros d := .fill d 0
  add x y := ⟨x.dim, fun c i j => x.value c i j + y.value c i j⟩
  halves x :=
    (⟨⟨x.dim.channels / 2, x.dim.height, x.dim.width⟩, x.value⟩,
      ⟨⟨x.dim.channels / 2, x.dim.height, x.dim.width⟩, fun c => x.value (x.dim.channels / 2 + c)⟩)
  dim_zeros _ := rfl
  dim_add _ _ _ := rfl
  dim_halves x c h w hx := by
    obtain ⟨d, value⟩ := x
    obtain rfl : d = ⟨2 * c, h, w⟩ := hx
    simp

/-- the weight 1 for every channel of every frame of a window -/
def Kernel.ones (i o k : ℕ) : Kernel Pixels i o k where
  apply v :=
    let d := (v.headD (.fill ⟨0, 0, 0⟩ 0)).dim
    ⟨⟨o, d.height, d.width⟩, fun _ r q => (v.map fun a => ((List.range i).map fun c => a.value c r q).sum).sum⟩
  dim_apply v h w hne _ hv := by
    obtain ⟨a, v, rfl⟩ := List.exists_cons_of_ne_nil hne
    have ha : a.dim = ⟨i, h, w⟩ := hv a List.mem_cons_self
    change (⟨o, a.dim.height, a.dim.width⟩ : Dim) = _
    rw [ha]

/-- a module by what it makes of the numbers of a frame -/
def FrameFn.ofValue (i o least : ℕ) (size : ℕ → ℕ) (f : (ℕ → ℕ → ℕ → ℚ) → ℕ → ℕ → ℕ → ℚ) : FrameFn Pixels i o least size where
  apply x := ⟨⟨o, size x.dim.height, size x.dim.width⟩, f x.value⟩
  dim_apply x h w _ _ hx := by
    have hdim : x.dim = ⟨i, h, w⟩ := hx
    change (⟨o, size x.dim.height, size x.dim.width⟩ : Dim) = _
    rw [hdim]

/-- negative numbers become 0, attention looks at the first pixel, and pixels are repeated or left out -/
def LayerWeights.ones : LayerWeights Pixels where
  norm _ c := .ofValue c c 0 id fun x ch r q => max 0 (x ch r q)
  conv _ i o k := .ones i o k
  attention c := .ofValue c c 0 id fun x ch r q => x ch r q + x ch 0 0
  upsample c := .ofValue c (c / 2) 1 (2 * ·) fun x ch r q => x ch (r / 2) (q / 2)
  downsample c := .ofValue c c 2 (· / 2) fun x ch r q => x ch (2 * r) (2 * q)

def NetWeights.ones : NetWeights Pixels := ⟨.ones, fun _ => .ones, fun _ _ => .ones, .ones⟩

def VaeWeights.ones : VaeWeights Pixels := ⟨.ones, .ones, .ones, .ones⟩

/-- the mean 1 / 2 and the deviation 2 -/
def Scale.half (z : ℕ) : Scale Pixels z where
  apply := .ofValue z z 0 id fun x c r q => (x c r q - 1 / 2) * (1 / 2)
  undo := .ofValue z z 0 id fun x c r q => x c r q * 2 + 1 / 2

/-- the configuration of `_video_vae` -/
def videoVae : NetConfig where
  dim := 96
  zDim := 16
  dimMult := [1, 2, 4, 4]
  numResBlocks := 2
  attnScales := []
  temperal := [false, true, true]

theorem videoVae_encoderFits : videoVae.EncoderFits := ⟨by decide, by decide, by decide, by simp [videoVae]⟩

theorem videoVae_decoderFits : videoVae.forDecoder.DecoderFits :=
  ⟨by decide, by decide, by decide, by simp [videoVae, NetConfig.forDecoder]⟩

/-! ## Chunks -/

omit [Feature F] in
theorem encodeChunk_eq (x : List F) : WanVAE.encodeChunk x = WanVAE.cut 4 x := rfl

omit [Feature F] in
theorem decodeChunk_eq (x : List F) : WanVAE.decodeChunk x = WanVAE.cut 1 x := by
  funext i
  rw [WanVAE.decodeChunk, WanVAE.cut]
  split_ifs with h
  · rw [h, List.drop_zero]
  · rw [one_mul, Nat.add_sub_cancel' (Nat.one_le_iff_ne_zero.2 h)]

omit [Feature F] in
theorem fed_cut (k : ℕ) (x : List F) (N : ℕ) : fed (WanVAE.cut k x) N = x.take (1 + k * N) := by
  induction N with
  | zero => exact fed_zero _
  | succ N ih =>
    rw [fed_succ, ih, WanVAE.cut, if_neg (Nat.succ_ne_zero N), Nat.add_sub_cancel, ← List.take_add, Nat.mul_succ, Nat.add_assoc]

omit [Feature F] in
theorem fed_encodeChunk (x : List F) (N : ℕ) : fed (WanVAE.encodeChunk x) N = x.take (1 + 4 * N) := by
  rw [encodeChunk_eq, fed_cut]

omit [Feature F] in
theorem fed_decodeChunk (x : List F) (N : ℕ) : fed (WanVAE.decodeChunk x) N = x.take (N + 1) := by
  rw [decodeChunk_eq, fed_cut, one_mul, Nat.add_comm]

/-- the number of chunks, as the source computes it -/
theorem iters_cut {t : ℕ} (ht : 0 < t) (k : ℕ) : (1 + ((t : ℤ) - 1) / (k : ℤ)).toNat = (t - 1) / k + 1 := by
  have hcast : ((t : ℤ) - 1) / (k : ℤ) = (((t - 1) / k : ℕ) : ℤ) := by
    rw [Int.natCast_div, Nat.cast_pred ht]
  rw [hcast]
  generalize (t - 1) / k = n
  omega

theorem iters_eq {t : ℕ} (ht : 0 < t) : (1 + ((t : ℤ) - 1) / 4).toNat = (t - 1) / 4 + 1 := iters_cut ht 4

omit [Feature F] in
/-- the chunks of a clip: its first frame, then k frames each, as far as they go -/
theorem cut_paced {A : F → Prop} {x : List F} (hx : ∀ a ∈ x, A a) (hne : x ≠ []) (k : ℕ) :
    Paced A k (WanVAE.cut k x) ((x.length - 1) / k) := by
  have hpos : 0 < x.length := List.length_pos_iff.2 hne
  refine ⟨fun i _ a ha => hx a ?_, ?_, fun i h₀ hi => ?_⟩
  · unfold WanVAE.cut at ha
    split_ifs at ha
    · exact List.mem_of_mem_take ha
    · exact List.mem_of_mem_drop (List.mem_of_mem_take ha)
  · rw [WanVAE.cut, if_pos rfl, List.length_take]
    omega
  · have hlast : k * (i - 1) + k ≤ x.length - 1 := calc
      k * (i - 1) + k = k * i := by rw [← Nat.mul_succ, Nat.succ_eq_add_one, Nat.sub_add_cancel h₀]
      _ ≤ k * ((x.length - 1) / k) := Nat.mul_le_mul_left k hi
      _ ≤ x.length - 1 := Nat.mul_div_le _ _
    rw [WanVAE.cut, if_neg (by omega), List.length_take, List.length_drop]
    omega

omit [Feature F] in
/-- the chunks of a clip to encode: its first frame, then 4 frames each -/
theorem encodeChunk_paced {A : F → Prop} {x : List F} (hx : ∀ a ∈ x, A a) (hne : x ≠ []) :
    Paced A 4 (WanVAE.encodeChunk x) ((x.length - 1) / 4) := cut_paced hx hne 4

omit [Feature F] in
/-- the chunks of latents: one frame each -/
theorem decodeChunk_paced {A : F → Prop} {x : List F} (hx : ∀ a ∈ x, A a) (hne : x ≠ []) :
    Paced A 1 (WanVAE.decodeChunk x) (x.length - 1) := by
  have hpaced := cut_paced hx hne 1
  rwa [Nat.div_one, ← decodeChunk_eq] at hpaced

/-! ## Whole clips -/

theorem NetConfig.EncoderFits.forEncoder {cfg : NetConfig} (fits : cfg.EncoderFits) : cfg.forEncoder.EncoderFits :=
  ⟨fits.stages, fits.blocks, fits.temperal, fits.noAttention⟩

/-- the constructor succeeds for a configuration that fits both networks -/
theorem WanVAE.init_ok {cfg : NetConfig} (enc : cfg.EncoderFits) (dec : cfg.forDecoder.DecoderFits) (weights : VaeWeights F) :
    ∃ self, WanVAE.init cfg weights = .ok self := by
  obtain ⟨_, _, _, he, -⟩ := Encoder3d.built enc.forEncoder weights.encoder one_pos le_rfl le_rfl
  obtain ⟨_, _, _, hd, -⟩ := Decoder3d.built dec weights.decoder one_pos le_rfl le_rfl
  rw [WanVAE.init, he, ok_bind, hd, ok_bind]
  exact ⟨_, rfl⟩

/-- what the constructor has built -/
structure WanVAE.Built (cfg : NetConfig) (weights : VaeWeights F) (vae : WanVAE F) : Prop where
  encoder : Encoder3d.init cfg.forEncoder weights.encoder = .ok vae.encoder
  decoder : Decoder3d.init cfg.forDecoder weights.decoder = .ok vae.decoder
  conv1 : vae.conv1 = ⟨cfg.zDim * 2, cfg.zDim * 2, 1, 1, 0, weights.conv1 (cfg.zDim * 2) (cfg.zDim * 2) 1⟩
  conv2 : vae.conv2 = ⟨cfg.zDim, cfg.zDim, 1, 1, 0, weights.conv2 cfg.zDim cfg.zDim 1⟩

theorem WanVAE.built {cfg : NetConfig} {weights : VaeWeights F} {self : WanVAE F}
    (h : WanVAE.init cfg weights = .ok self) : Built cfg weights self := by
  obtain ⟨e, he, hrest⟩ := bind_eq_ok.1 h
  obtain ⟨d, hd, hpure⟩ := bind_eq_ok.1 hrest
  obtain rfl := Except.ok.inj hpure
  exact ⟨he, hd, rfl, rfl⟩

/-- joining clips of one size -/
theorem cat_sized {d : Dim} : ∀ y z : List F, (∀ b ∈ y ++ z, Sized d b) → cat y z = .ok (y ++ z) :=
  fun _ _ h => cat_ok h

/-- the last pixel-wise steps of `encode` -/
theorem encode_tail {self : WanVAE F} {z h w : ℕ} (hconv : self.conv1.Single) (hin : self.conv1.inChannels = z * 2)
    (hout : self.conv1.outChannels = z * 2) (scale : Scale F z) {out : List F} (hne : out ≠ [])
    (hdim : ∀ b ∈ out, dim b = ⟨z * 2, h, w⟩) (s : Caches F) :
    ((do
      let out ← Py.ofExcept (self.conv1.forward out none)
      let mu ← Py.ofExcept (scale.apply.forward (out.map fun a => (halves a).1))
      self.clearCache
      pure mu : Py (Caches F) (List F)).run s) =
        (.ok ((self.conv1.whole out).map fun a => scale.apply.apply (halves a).1), self.cleared) ∧
      ∀ b ∈ (self.conv1.whole out).map (fun a => scale.apply.apply (halves a).1), dim b = ⟨z, h, w⟩ := by
  have hdim' : ∀ b ∈ out, dim b = ⟨self.conv1.inChannels, h, w⟩ := fun b hb => by rw [hdim b hb, hin]
  have hwhole : ∀ b ∈ self.conv1.whole out, dim (halves b).1 = ⟨z, h, w⟩ := by
    intro b hb
    rw [CausalConv3d.whole_single hconv] at hb
    obtain ⟨a, ha, rfl⟩ := List.mem_map.1 hb
    have hd := CausalConv3d.dim_single hconv (hdim' a ha)
    exact (dim_halves _ z h w (hd.trans (by rw [hout, mul_comm]))).1
  have hmu : ∀ a ∈ (self.conv1.whole out).map (fun a => (halves a).1), dim a = ⟨z, h, w⟩ := by
    intro a ha
    obtain ⟨b, hb, rfl⟩ := List.mem_map.1 ha
    exact hwhole b hb
  refine ⟨?_, ?_⟩
  · rw [CausalConv3d.forward_single hconv hdim' hne, ← CausalConv3d.whole_single hconv, Py.run_bind_ofExcept]
    simp only [scale.apply.forward_ok (Nat.zero_le h) (Nat.zero_le w) hmu, Py.run_bind_ofExcept, List.map_map]
    rfl
  · intro b hb
    obtain ⟨a, ha, rfl⟩ := List.mem_map.1 hb
    exact scale.apply.dim_apply _ h w (Nat.zero_le h) (Nat.zero_le w) (hwhole a ha)

/-- encoding by k frames at a time: whatever the caches held, the outcome is what the network gives on the whole clip, up to
the last whole chunk. k is a multiple of 2 ^ r, if r stages halve time, or there is a single chunk. -/
theorem WanVAE.encodeBy_run {cfg : NetConfig} (fits : cfg.EncoderFits) {weights : VaeWeights F} {self : WanVAE F}
    (hself : WanVAE.init cfg weights = .ok self) (scale : Scale F cfg.zDim) {x : List F} {H W k : ℕ} (hne : x ≠ [])
    (hx : ∀ a ∈ x, dim a = ⟨3, H, W⟩) (hH : 2 ^ (cfg.dimMult.length - 1) ≤ H) (hW : 2 ^ (cfg.dimMult.length - 1) ≤ W)
    (htime : 2 ^ cfg.timeSteps 0 (cfg.dimMult.length - 1) ∣ k ∨ (x.length - 1) / k = 0) (s : Caches F) :
    let mu := self.encodeWhole scale (x.take (1 + k * ((x.length - 1) / k)))
    (self.encodeBy scale k x).run s = (.ok mu, self.cleared) ∧
      mu.length = 1 + k / 2 ^ cfg.timeSteps 0 (cfg.dimMult.length - 1) * ((x.length - 1) / k) ∧
      ∀ a ∈ mu, dim a = ⟨cfg.zDim, H / 2 ^ (cfg.dimMult.length - 1), W / 2 ^ (cfg.dimMult.length - 1)⟩ := by
  set r := cfg.timeSteps 0 (cfg.dimMult.length - 1) with hr
  set h := H / 2 ^ (cfg.dimMult.length - 1)
  set w := W / 2 ^ (cfg.dimMult.length - 1)
  set N := (x.length - 1) / k with hN
  have built := WanVAE.built hself
  have hpos : 0 < x.length := List.length_pos_iff.2 hne
  -- a chunk of k frames is m frames of latents
  obtain ⟨m, hm, hpaced, hcount⟩ : ∃ m, 0 < m ∧ Paced (Sized ⟨3, H, W⟩) (2 ^ r * m) (cut k x) N ∧ m * N = k / 2 ^ r * N := by
    have hcut := cut_paced (A := Sized ⟨3, H, W⟩) hx hne k
    rw [← hN] at hcut
    rcases Nat.eq_zero_or_pos N with h0 | hNpos
    · rw [h0] at hcut ⊢
      exact ⟨1, Nat.one_pos, ⟨hcut.items, hcut.first, fun i h₀ hi => absurd hi (by omega)⟩, rfl⟩
    · have hk : 0 < k := Nat.pos_of_ne_zero fun h0 => by
        rw [hN, h0, Nat.div_zero] at hNpos
        exact absurd hNpos (Nat.lt_irrefl 0)
      have hdvd := htime.resolve_right hNpos.ne'
      refine ⟨k / 2 ^ r, Nat.div_pos (Nat.le_of_dvd hk hdvd) (Nat.two_pow_pos r), ?_, rfl⟩
      rwa [Nat.mul_div_cancel' hdvd]
  obtain ⟨n, hn, hstream⟩ := Encoder3d.streams fits.forEncoder built.encoder hm hH hW
  have hr' : cfg.forEncoder.timeSteps 0 (cfg.forEncoder.dimMult.length - 1) = r := rfl
  rw [hr'] at hstream
  have hconv1 := built.conv1
  obtain ⟨slots, hfeed, hsized, hlen⟩ := hstream.feed cat_sized hpaced hn 0
  rw [fed_cut] at hfeed hsized hlen
  intro mu
  have houtne : self.encoder.whole (x.take (1 + k * N)) ≠ [] := by
    intro h0
    rw [h0, List.length_nil] at hlen
    omega
  have hsingle : self.conv1.Single := by
    rw [hconv1]
    exact ⟨rfl, rfl, rfl⟩
  obtain ⟨htail, hdims⟩ := encode_tail hsingle (by rw [hconv1]) (by rw [hconv1]) scale houtne hsized
    { self.cleared with encFeatMap := slots.items, encConvIdx := slots.idx }
  refine ⟨?_, ?_, hdims⟩
  · have hloop : (Caches.encoding (feed self.encoder.cached cat (cut k x) (N + 1))).run self.cleared =
        (.ok (some (self.encoder.whole (x.take (1 + k * N)))),
          { self.cleared with encFeatMap := slots.items, encConvIdx := slots.idx }) := by
      rw [Caches.encoding, Py.run_zoom]
      simp only [WanVAE.cleared, hfeed]
    unfold WanVAE.encodeBy
    simp only [iters_cut hpos]
    rw [WanVAE.clearCache, Py.run_bind_modify]
    exact (Py.run_bind_ok hloop _).trans htail
  · exact (List.length_map _).trans (by rw [CausalConv3d.whole_single hsingle, List.length_map, hlen, hcount])

theorem WanVAE.encode_eq (self : WanVAE F) {z : ℕ} (scale : Scale F z) (x : List F) :
    self.encode scale x = self.encodeBy scale 4 x := rfl

/-- encoding: one frame of latents for the first frame and 4 / 2 ^ r for each further 4, if r stages halve time -/
theorem WanVAE.encode_run {cfg : NetConfig} (fits : cfg.EncoderFits) {weights : VaeWeights F} {self : WanVAE F}
    (hself : WanVAE.init cfg weights = .ok self) (scale : Scale F cfg.zDim) {x : List F} {H W : ℕ} (hne : x ≠ [])
    (hx : ∀ a ∈ x, dim a = ⟨3, H, W⟩) (hH : 2 ^ (cfg.dimMult.length - 1) ≤ H) (hW : 2 ^ (cfg.dimMult.length - 1) ≤ W)
    (htime : cfg.timeSteps 0 (cfg.dimMult.length - 1) ≤ 2 ∨ x.length ≤ 4) (s : Caches F) :
    let mu := self.encodeWhole scale (x.take (1 + 4 * ((x.length - 1) / 4)))
    (self.encode scale x).run s = (.ok mu, self.cleared) ∧
      mu.length = 1 + 4 / 2 ^ cfg.timeSteps 0 (cfg.dimMult.length - 1) * ((x.length - 1) / 4) ∧
      ∀ a ∈ mu, dim a = ⟨cfg.zDim, H / 2 ^ (cfg.dimMult.length - 1), W / 2 ^ (cfg.dimMult.length - 1)⟩ := by
  intro mu
  rw [self.encode_eq]
  refine WanVAE.encodeBy_run fits hself scale hne hx hH hW ?_ s
  exact htime.imp (fun h => pow_dvd_pow 2 h) fun h => Nat.div_eq_of_lt (by omega)

/-- the latents as the decoder's network takes them -/
theorem WanVAE.Built.latents {cfg : NetConfig} {weights : VaeWeights F} {vae : WanVAE F} (built : Built cfg weights vae)
    (scale : Scale F cfg.zDim) {x : List F} {h w : ℕ} (hx : ∀ a ∈ x, dim a = ⟨cfg.zDim, h, w⟩) :
    vae.conv2.Single ∧ (∀ a ∈ x.map scale.undo.apply, dim a = ⟨vae.conv2.inChannels, h, w⟩) ∧
      (∀ a ∈ vae.conv2.whole (x.map scale.undo.apply), dim a = ⟨cfg.zDim, h, w⟩) ∧
      (vae.conv2.whole (x.map scale.undo.apply)).length = x.length := by
  have hconv2 := built.conv2
  have hsingle : vae.conv2.Single := by
    rw [hconv2]
    exact ⟨rfl, rfl, rfl⟩
  have hscaled : ∀ a ∈ x.map scale.undo.apply, dim a = ⟨vae.conv2.inChannels, h, w⟩ := by
    rw [hconv2]
    exact scale.undo.dim_map (Nat.zero_le h) (Nat.zero_le w) hx
  refine ⟨hsingle, hscaled, fun a ha => ?_, ?_⟩
  · rw [CausalConv3d.whole_single hsingle] at ha
    obtain ⟨b, hb, rfl⟩ := List.mem_map.1 ha
    exact (CausalConv3d.dim_single hsingle (hscaled b hb)).trans (by rw [hconv2])
  · rw [CausalConv3d.whole_single hsingle, List.length_map, List.length_map]

/-- the cache of the decoder as the loop of `decode` finds it -/
def WanVAE.fresh (vae : WanVAE F) : Slots (CacheItem F) := ⟨List.replicate vae.decoder.countConv3d none, 0⟩

/-- what `decodeBy` makes of its loop -/
theorem WanVAE.Built.decodeBy_loop {cfg : NetConfig} {weights : VaeWeights F} {vae : WanVAE F} (built : Built cfg weights vae)
    (scale : Scale F cfg.zDim) {x : List F} {h w k : ℕ} (hne : x ≠ []) (hx : ∀ a ∈ x, dim a = ⟨cfg.zDim, h, w⟩)
    {out : List F} {slots : Slots (CacheItem F)}
    (hloop : (feed vae.decoder.cached cat (cut k (vae.conv2.whole (x.map scale.undo.apply))) ((x.length - 1) / k + 1)).run
      vae.fresh = (.ok (some out), slots)) (s : Caches F) :
    (vae.decodeBy scale k x).run s = (.ok out, vae.cleared) := by
  obtain ⟨hsingle, hscaled, -, -⟩ := built.latents scale hx
  have hdecoding : (Caches.decoding (feed vae.decoder.cached cat (cut k (vae.conv2.whole (x.map scale.undo.apply)))
      ((x.length - 1) / k + 1))).run vae.cleared =
        (.ok (some out), { vae.cleared with featMap := slots.items, convIdx := slots.idx }) := by
    rw [Caches.decoding, Py.run_zoom]
    simp only [WanVAE.cleared]
    rw [show (⟨List.replicate vae.decoder.countConv3d none, 0⟩ : Slots (CacheItem F)) = vae.fresh from rfl, hloop]
  unfold WanVAE.decodeBy
  rw [WanVAE.clearCache, Py.run_bind_modify, scale.undo.forward_ok (Nat.zero_le h) (Nat.zero_le w) hx,
    Py.run_bind_ofExcept]
  simp only [List.length_map, iters_cut (List.length_pos_iff.2 hne)]
  rw [CausalConv3d.forward_single hsingle hscaled (by simpa using hne), ← CausalConv3d.whole_single hsingle,
    Py.run_bind_ofExcept]
  exact (Py.run_bind_ok hdecoding _).trans rfl

theorem WanVAE.decode_eq (self : WanVAE F) {z : ℕ} (scale : Scale F z) (x : List F) :
    self.decode scale x = self.decodeBy scale 1 x := by
  have hiters : ∀ y : List F, (1 + ((y.length : ℤ) - 1) / ((1 : ℕ) : ℤ)).toNat = y.length := by
    intro y
    rw [Nat.cast_one, Int.ediv_one]
    omega
  unfold WanVAE.decode WanVAE.decodeBy
  simp only [hiters, decodeChunk_eq]

/-- what `decode` makes of its loop -/
theorem WanVAE.Built.decode_loop {cfg : NetConfig} {weights : VaeWeights F} {vae : WanVAE F} (built : Built cfg weights vae)
    (scale : Scale F cfg.zDim) {x : List F} {h w : ℕ} (hne : x ≠ []) (hx : ∀ a ∈ x, dim a = ⟨cfg.zDim, h, w⟩)
    {out : List F} {slots : Slots (CacheItem F)}
    (hloop : (feed vae.decoder.cached cat (decodeChunk (vae.conv2.whole (x.map scale.undo.apply))) x.length).run vae.fresh =
      (.ok (some out), slots)) (s : Caches F) :
    (vae.decode scale x).run s = (.ok out, vae.cleared) := by
  rw [vae.decode_eq scale x]
  have hcut : (feed vae.decoder.cached cat (cut 1 (vae.conv2.whole (x.map scale.undo.apply))) ((x.length - 1) / 1 + 1)).run
      vae.fresh = (.ok (some out), slots) := by
    rwa [Nat.div_one, Nat.sub_add_cancel (List.length_pos_iff.2 hne), ← decodeChunk_eq]
  exact built.decodeBy_loop scale hne hx hcut s

/-- decoding by k latents at a time: whatever the caches held, the outcome is what the network gives on all latents, up to
the last whole chunk -/
theorem WanVAE.decodeBy_run {cfg : NetConfig} (fits : cfg.forDecoder.DecoderFits) {weights : VaeWeights F} {self : WanVAE F}
    (hself : WanVAE.init cfg weights = .ok self) (scale : Scale F cfg.zDim) {x : List F} {h w k : ℕ} (hne : x ≠ [])
    (hx : ∀ a ∈ x, dim a = ⟨cfg.zDim, h, w⟩) (hh : 1 ≤ h) (hw : 1 ≤ w) (hk : k ∣ x.length - 1) (s : Caches F) :
    let out := self.decodeWhole scale x
    (self.decodeBy scale k x).run s = (.ok out, self.cleared) ∧
      out.length = 1 + 2 ^ cfg.forDecoder.timeSteps 0 (cfg.dimMult.length - 1) * (x.length - 1) ∧
      ∀ a ∈ out, dim a = ⟨3, 2 ^ (cfg.dimMult.length - 1) * h, 2 ^ (cfg.dimMult.length - 1) * w⟩ := by
  have built := WanVAE.built hself
  obtain ⟨hsingle, hscaled, hconved, hlen⟩ := built.latents scale hx
  have hpos : 0 < x.length := List.length_pos_iff.2 hne
  have hne' : self.conv2.whole (x.map scale.undo.apply) ≠ [] := by
    intro h0
    rw [h0, List.length_nil] at hlen
    omega
  have hcut := cut_paced (A := Sized ⟨cfg.zDim, h, w⟩) hconved hne' k
  rw [hlen] at hcut
  have hall : k * ((x.length - 1) / k) = x.length - 1 := Nat.mul_div_cancel' hk
  -- chunks of no latents are those of a single one
  obtain ⟨m, hm, hpaced, hcount⟩ : ∃ m, 0 < m ∧ Paced (Sized ⟨cfg.zDim, h, w⟩) m
      (cut k (self.conv2.whole (x.map scale.undo.apply))) ((x.length - 1) / k) ∧ m * ((x.length - 1) / k) = x.length - 1 := by
    rcases Nat.eq_zero_or_pos k with h0 | hkpos
    · have hone : (x.length - 1) / k = 0 := by rw [h0, Nat.div_zero]
      rw [hone] at hcut hall ⊢
      exact ⟨1, Nat.one_pos, ⟨hcut.items, hcut.first, fun i h₀ hi => absurd hi (by omega)⟩, by omega⟩
    · exact ⟨k, hkpos, hcut, hall⟩
  obtain ⟨n, hn, hstream⟩ := Decoder3d.streams fits built.decoder hm hh hw
  obtain ⟨slots, hfeed, hsized, hout⟩ := hstream.feed cat_sized hpaced hn 0
  rw [fed_cut, hall, Nat.add_comm 1, Nat.sub_add_cancel hpos, List.take_of_length_le hlen.le] at hfeed hsized hout
  intro out
  refine ⟨built.decodeBy_loop scale hne hx hfeed s, ?_, hsized⟩
  rw [mul_assoc, hcount] at hout
  exact hout

/-- decoding: one frame for the first latent and 2 ^ r for each further one, if r stages double time -/
theorem WanVAE.decode_run {cfg : NetConfig} (fits : cfg.forDecoder.DecoderFits) {weights : VaeWeights F} {self : WanVAE F}
    (hself : WanVAE.init cfg weights = .ok self) (scale : Scale F cfg.zDim) {x : List F} {h w : ℕ} (hne : x ≠ [])
    (hx : ∀ a ∈ x, dim a = ⟨cfg.zDim, h, w⟩) (hh : 1 ≤ h) (hw : 1 ≤ w) (s : Caches F) :
    let out := self.decodeWhole scale x
    (self.decode scale x).run s = (.ok out, self.cleared) ∧
      out.length = 1 + 2 ^ cfg.forDecoder.timeSteps 0 (cfg.dimMult.length - 1) * (x.length - 1) ∧
      ∀ a ∈ out, dim a = ⟨3, 2 ^ (cfg.dimMult.length - 1) * h, 2 ^ (cfg.dimMult.length - 1) * w⟩ := by
  rw [self.decode_eq scale x]
  exact WanVAE.decodeBy_run fits hself scale hne hx hh hw (one_dvd _) s

/-! ## Calls on one autoencoder -/

/-- a call on an autoencoder, with its clip of frames or of latents -/
inductive Call (F : Type) where
  | encode (x : List F)
  | decode (z : List F)

namespace Call

def run (vae : WanVAE F) {z : ℕ} (scale : Scale F z) : Call F → Py (Caches F) (List F)
  | encode x => vae.encode scale x
  | decode x => vae.decode scale x

/-- the same by k frames or latents at a time -/
def runBy (vae : WanVAE F) {z : ℕ} (scale : Scale F z) (k : ℕ) : Call F → Py (Caches F) (List F)
  | encode x => vae.encodeBy scale k x
  | decode x => vae.decodeBy scale k x

/-- a clip that the networks take: to encode more than 4 frames, at most two stages may halve time -/
def Takes (cfg : NetConfig) : Call F → Prop
  | encode x => x ≠ [] ∧ (cfg.timeSteps 0 (cfg.dimMult.length - 1) ≤ 2 ∨ x.length ≤ 4) ∧
      ∃ H W, 2 ^ (cfg.dimMult.length - 1) ≤ H ∧ 2 ^ (cfg.dimMult.length - 1) ≤ W ∧ ∀ a ∈ x, dim a = ⟨3, H, W⟩
  | decode x => x ≠ [] ∧ ∃ h w, 1 ≤ h ∧ 1 ≤ w ∧ ∀ a ∈ x, dim a = ⟨cfg.zDim, h, w⟩

/-- chunks of k that the networks take, and that leave out the same frames -/
def Covers (cfg : NetConfig) (k : ℕ) : Call F → Prop
  | encode x => (2 ^ cfg.timeSteps 0 (cfg.dimMult.length - 1) ∣ k ∨ (x.length - 1) / k = 0) ∧
      k * ((x.length - 1) / k) = 4 * ((x.length - 1) / 4)
  | decode x => k ∣ x.length - 1

/-- how many frames it comes to -/
def count (cfg : NetConfig) : Call F → ℕ
  | encode x => 1 + 4 / 2 ^ cfg.timeSteps 0 (cfg.dimMult.length - 1) * ((x.length - 1) / 4)
  | decode x => 1 + 2 ^ cfg.forDecoder.timeSteps 0 (cfg.dimMult.length - 1) * (x.length - 1)

end Call

/-- one call after another, whether the ones before raise or not -/
def WanVAE.calls (vae : WanVAE F) {z : ℕ} (scale : Scale F z) : List (Call F) → Caches F → List (Except PyErr (List F))
  | [], _ => []
  | call :: rest, s =>
    let r := (call.run vae scale).run s
    r.1 :: vae.calls scale rest r.2

/-- a call on a clip that fits, from any caches, in chunks of any length that fits -/
theorem WanVAE.call_run {cfg : NetConfig} (enc : cfg.EncoderFits) (dec : cfg.forDecoder.DecoderFits)
    {weights : VaeWeights F} {vae : WanVAE F} (hvae : WanVAE.init cfg weights = .ok vae) (scale : Scale F cfg.zDim)
    {call : Call F} (h : call.Takes cfg) :
    ∃ out, out.length = call.count cfg ∧ (∀ s, (call.run vae scale).run s = (.ok out, vae.cleared)) ∧
      ∀ k, call.Covers cfg k → ∀ s, (call.runBy vae scale k).run s = (.ok out, vae.cleared) := by
  cases call with
  | encode x =>
    obtain ⟨hne, htime, H, W, hH, hW, hx⟩ := h
    have hrun := WanVAE.encode_run enc hvae scale hne hx hH hW htime
    refine ⟨_, (hrun vae.cleared).2.1, fun s => (hrun s).1, ?_⟩
    intro k hk s
    have hby := (WanVAE.encodeBy_run enc hvae scale hne hx hH hW hk.1 s).1
    rwa [hk.2] at hby
  | decode x =>
    obtain ⟨hne, h, w, hh, hw, hx⟩ := h
    have hrun := WanVAE.decode_run dec hvae scale hne hx hh hw
    exact ⟨_, (hrun vae.cleared).2.1, fun s => (hrun s).1,
      fun k hk s => (WanVAE.decodeBy_run dec hvae scale hne hx hh hw hk s).1⟩

/-- **Call by call.** In any sequence of calls on one autoencoder, from any caches, each call on a clip that fits gives what
it gives on its own, whatever the calls before it left or raised, and what it gives in chunks of any other length that
fits, as of one frame and then all the rest. -/
theorem calls_any_chunks {cfg : NetConfig} (enc : cfg.EncoderFits) (dec : cfg.forDecoder.DecoderFits)
    {weights : VaeWeights F} {vae : WanVAE F} (hvae : WanVAE.init cfg weights = .ok vae) (scale : Scale F cfg.zDim)
    (calls : List (Call F)) (s : Caches F) {i : ℕ} {call : Call F} (hcall : calls[i]? = some call) (h : call.Takes cfg) :
    ∃ out, (vae.calls scale calls s)[i]? = some (.ok out) ∧ out.length = call.count cfg ∧
      (∀ s', (call.run vae scale).run s' = (.ok out, vae.cleared)) ∧
      ∀ k, call.Covers cfg k → ∀ s', (call.runBy vae scale k).run s' = (.ok out, vae.cleared) := by
  obtain ⟨out, hlen, hrun, hby⟩ := WanVAE.call_run enc dec hvae scale h
  refine ⟨out, ?_, hlen, hrun, hby⟩
  induction calls generalizing s i with
  | nil => cases hcall
  | cons first rest ih =>
    cases i with
    | zero =>
      obtain rfl : first = call := Option.some.inj hcall
      exact congrArg (fun r => some r.1) (hrun s)
    | succ i => exact ih ((first.run vae scale).run s).2 hcall

/-- behind a call that raised, 10 frames, one of which is left out, 4 or 8 at a time -/
theorem calls_any_chunks_videoVae :
    ∃ (vae : WanVAE Pixels) (out : List Pixels), WanVAE.init videoVae .ones = .ok vae ∧
      (vae.calls (.half 16) [.decode [.fill ⟨3, 2, 3⟩ 1], .encode (List.replicate 10 (.fill ⟨3, 16, 24⟩ 1))] vae.cleared)[1]? =
        some (.ok out) ∧ out.length = 3 ∧
      (vae.encodeBy (.half 16) 8 (List.replicate 10 (.fill ⟨3, 16, 24⟩ 1))).run vae.cleared = (.ok out, vae.cleared) := by
  obtain ⟨vae, hvae⟩ := WanVAE.init_ok videoVae_encoderFits videoVae_decoderFits VaeWeights.ones
  obtain ⟨out, hout, hlen, -, hby⟩ := calls_any_chunks videoVae_encoderFits videoVae_decoderFits hvae (.half 16)
    [.decode [.fill ⟨3, 2, 3⟩ 1], .encode (List.replicate 10 (.fill ⟨3, 16, 24⟩ 1))] vae.cleared (i := 1) rfl
    ⟨by simp, .inl (by decide), 16, 24, by decide, by decide, fun a ha => by rw [List.eq_of_mem_replicate ha]; rfl⟩
  exact ⟨vae, out, hvae, hout, hlen, hby 8 ⟨.inl (by decide), by simp⟩ vae.cleared⟩

/-- **Causality.** What is decoded from the first k latents is the beginning of what is decoded from all of them. -/
theorem decode_prefix {cfg : NetConfig} (fits : cfg.forDecoder.DecoderFits) {weights : VaeWeights F} {self : WanVAE F}
    (hself : WanVAE.init cfg weights = .ok self) (scale : Scale F cfg.zDim) {x : List F} {h w k : ℕ} (hk : 0 < k)
    (hkx : k ≤ x.length) (hx : ∀ a ∈ x, dim a = ⟨cfg.zDim, h, w⟩) (hh : 1 ≤ h) (hw : 1 ≤ w) (s s' : Caches F) :
    ∃ a b, ((self.decode scale (x.take k)).run s).1 = .ok a ∧ ((self.decode scale x).run s').1 = .ok b ∧ a <+: b := by
  have hne : x ≠ [] := List.length_pos_iff.1 (by omega)
  have htakene : x.take k ≠ [] := List.length_pos_iff.1 (by rw [List.length_take]; omega)
  have hall := (WanVAE.decode_run fits hself scale hne hx hh hw s').1
  have htake := (WanVAE.decode_run fits hself scale htakene (fun a ha => hx a (List.mem_of_mem_take ha)) hh hw s).1
  refine ⟨_, _, congrArg Prod.fst htake, congrArg Prod.fst hall, ?_⟩
  have built := WanVAE.built hself
  obtain ⟨hsingle, -, hconved, hlen⟩ := built.latents scale hx
  obtain ⟨n, hn, hstream⟩ := Decoder3d.streams fits built.decoder one_pos hh hw
  have hpaced := decodeChunk_paced (A := Sized ⟨cfg.zDim, h, w⟩) hconved
    (by rw [← List.length_pos_iff, hlen]; omega)
  rw [hlen] at hpaced
  have hgrows := hstream.grows hpaced (M := k - 1) (by omega)
  rw [fed_decodeChunk, fed_decodeChunk, Nat.sub_add_cancel hk, Nat.sub_add_cancel (by omega),
    List.take_of_length_le hlen.le] at hgrows
  have htakes : self.conv2.whole ((x.take k).map scale.undo.apply) = (self.conv2.whole (x.map scale.undo.apply)).take k := by
    rw [CausalConv3d.whole_single hsingle, CausalConv3d.whole_single hsingle, List.map_take, List.map_take]
  rw [WanVAE.decodeWhole, WanVAE.decodeWhole, htakes]
  exact hgrows

theorem decode_prefix_videoVae :
    ∃ (self : WanVAE Pixels) (a b : List Pixels), WanVAE.init videoVae .ones = .ok self ∧
      ((self.decode (.half 16) (List.replicate 1 (.fill ⟨16, 2, 3⟩ 1))).run self.cleared).1 = .ok a ∧
      ((self.decode (.half 16) (List.replicate 2 (.fill ⟨16, 2, 3⟩ 1))).run self.cleared).1 = .ok b ∧ a <+: b := by
  obtain ⟨self, hself⟩ := WanVAE.init_ok videoVae_encoderFits videoVae_decoderFits VaeWeights.ones
  obtain ⟨a, b, ha, hb, hab⟩ := decode_prefix videoVae_decoderFits hself (.half 16)
    (x := List.replicate 2 (.fill ⟨16, 2, 3⟩ 1)) (h := 2) (w := 3) (k := 1) (by decide) (by simp)
    (fun a ha => by rw [List.eq_of_mem_replicate ha]; rfl) (by decide) (by decide) self.cleared self.cleared
  exact ⟨self, a, b, hself, ha, hb, hab⟩

/-- stages that halve time in the encoder double it in the decoder -/
theorem forDecoder_timeSteps {cfg : NetConfig} (h : cfg.temperal.length = cfg.dimMult.length - 1) :
    cfg.forDecoder.timeSteps 0 (cfg.dimMult.length - 1) = cfg.timeSteps 0 (cfg.dimMult.length - 1) := by
  rw [NetConfig.timeSteps, NetConfig.timeSteps, ← h]
  simp [NetConfig.forDecoder, List.take_of_length_le]

/-- chunks of 4 that r stages halve are halved to the end -/
theorem four_halved {r n : ℕ} (h : r ≤ 2 ∨ n = 0) : 2 ^ r * (4 / 2 ^ r * n) = 4 * n := by
  rcases h with hr | rfl
  · have hdvd : 2 ^ r ∣ 4 := pow_dvd_pow 2 hr
    rw [← mul_assoc, Nat.mul_div_cancel' hdvd]
  · simp

/-- as often doubled as halved -/
theorem doubled_eq_iff {r r' n : ℕ} (h : r ≤ 2 ∨ n = 0) : 1 + 2 ^ r' * (4 / 2 ^ r * n) = 1 + 4 * n ↔ r' = r ∨ n = 0 := by
  rcases Nat.eq_zero_or_pos n with rfl | hn
  · simp
  · have hpos : 0 < 4 / 2 ^ r * n := Nat.pos_of_ne_zero fun h0 => by
      have hfour := four_halved h
      rw [h0] at hfour
      omega
    rw [← four_halved h, Nat.add_left_cancel_iff, Nat.mul_left_inj hpos.ne', Nat.pow_right_inj (by decide), or_iff_left hn.ne']

/-- **Round trip.** A clip of 1 + 4 n frames, in a size the stages divide, is encoded and decoded to one of that size, in as
many frames if and only if as many stages of the decoder double time as stages of the encoder halve it; so it is where each
flag has its stage. Of more than one chunk at most two stages may halve time. -/
theorem encode_decode_size {cfg : NetConfig} (enc : cfg.EncoderFits) (dec : cfg.forDecoder.DecoderFits)
    {weights : VaeWeights F} {self : WanVAE F} (hself : WanVAE.init cfg weights = .ok self) (scale : Scale F cfg.zDim)
    {x : List F} {H W n : ℕ} (hlen : x.length = 1 + 4 * n) (hx : ∀ a ∈ x, dim a = ⟨3, H, W⟩)
    (hH : 2 ^ (cfg.dimMult.length - 1) ∣ H) (hW : 2 ^ (cfg.dimMult.length - 1) ∣ W) (hHpos : 0 < H) (hWpos : 0 < W)
    (htime : cfg.timeSteps 0 (cfg.dimMult.length - 1) ≤ 2 ∨ n = 0) (s : Caches F) :
    ∃ out, (self.encode scale x >>= self.decode scale).run s = (.ok out, self.cleared) ∧
      (out.length = x.length ↔ cfg.forDecoder.timeSteps 0 (cfg.dimMult.length - 1) =
        cfg.timeSteps 0 (cfg.dimMult.length - 1) ∨ n = 0) ∧
      (cfg.temperal.length = cfg.dimMult.length - 1 → out.length = x.length) ∧ ∀ a ∈ out, dim a = ⟨3, H, W⟩ := by
  have hne : x ≠ [] := List.length_pos_iff.1 (by omega)
  have hHle := Nat.le_of_dvd hHpos hH
  have hWle := Nat.le_of_dvd hWpos hW
  have hpow : 0 < 2 ^ (cfg.dimMult.length - 1) := Nat.two_pow_pos _
  obtain ⟨hrun, hmulen, hmudim⟩ := WanVAE.encode_run enc hself scale hne hx hHle hWle (htime.imp_right fun h => by omega) s
  set mu := self.encodeWhole scale (x.take (1 + 4 * ((x.length - 1) / 4))) with hmu
  have hmune : mu ≠ [] := List.length_pos_iff.1 (by omega)
  obtain ⟨hrun', houtlen, houtdim⟩ := WanVAE.decode_run dec hself scale hmune hmudim (Nat.div_pos hHle hpow)
    (Nat.div_pos hWle hpow) self.cleared
  have hn : (x.length - 1) / 4 = n := by omega
  rw [hmulen, hn, Nat.add_sub_cancel_left] at houtlen
  have hsame : (self.decodeWhole scale mu).length = x.length ↔ cfg.forDecoder.timeSteps 0 (cfg.dimMult.length - 1) =
      cfg.timeSteps 0 (cfg.dimMult.length - 1) ∨ n = 0 := by
    rw [houtlen, hlen, doubled_eq_iff htime]
  refine ⟨_, (Py.run_bind_ok hrun _).trans hrun', hsame, fun h => hsame.2 (.inl (forDecoder_timeSteps h)), ?_⟩
  rwa [Nat.mul_div_cancel' hH, Nat.mul_div_cancel' hW] at houtdim

theorem encode_decode_size_videoVae :
    ∃ (self : WanVAE Pixels) (out : List Pixels), WanVAE.init videoVae .ones = .ok self ∧
      (self.encode (.half 16) (List.replicate 5 (.fill ⟨3, 16, 24⟩ 1)) >>= self.decode (.half 16)).run self.cleared =
        (.ok out, self.cleared) ∧ out.length = 5 := by
  obtain ⟨self, hself⟩ := WanVAE.init_ok videoVae_encoderFits videoVae_decoderFits VaeWeights.ones
  obtain ⟨out, hrun, -, hlen, -⟩ := encode_decode_size videoVae_encoderFits videoVae_decoderFits hself (.half 16)
    (x := List.replicate 5 (.fill ⟨3, 16, 24⟩ 1)) (H := 16) (W := 24) (n := 1) (by simp)
    (fun a ha => by rw [List.eq_of_mem_replicate ha]; rfl) (by decide) (by decide) (by decide) (by decide) (.inl (by decide))
    self.cleared
  exact ⟨self, out, hself, hrun, (hlen (by decide)).trans (by simp)⟩

/-! ## With and without a cache -/

/-- a number of latents, and as many frames, if and only if nothing is there to be halved -/
theorem chunks_eq_iff {r N : ℕ} (hr : r ≤ 2) : 1 + 4 / 2 ^ r * N = 1 + 4 * N ↔ r = 0 ∨ N = 0 := by
  have hsame : 1 + 2 ^ 0 * (4 / 2 ^ r * N) = 1 + 4 * N ↔ 0 = r ∨ N = 0 := doubled_eq_iff (.inl hr)
  rwa [pow_zero, one_mul, eq_comm (a := 0)] at hsame

/-- **With and without a cache.** Both are accepted, but the decoder gives the same either way if and only if none of its
stages changes time or there is a single latent: without a cache, time is never doubled. -/
theorem decoder_plain_iff {cfg : NetConfig} (fits : cfg.DecoderFits) {weights : NetWeights F} {d : Decoder3d F}
    (hd : Decoder3d.init cfg weights = .ok d) {x : List F} {h w : ℕ} (hne : x ≠ [])
    (hx : ∀ a ∈ x, dim a = ⟨cfg.zDim, h, w⟩) (hh : 1 ≤ h) (hw : 1 ≤ w) :
    ∃ out y, ((feed d.cached cat (WanVAE.decodeChunk x) x.length).run ⟨List.replicate d.countConv3d none, 0⟩).1 =
        .ok (some out) ∧ d.plain x = .ok y ∧
      (y = out ↔ cfg.timeSteps 0 (cfg.dimMult.length - 1) = 0 ∨ x.length = 1) := by
  have hpos : 0 < x.length := List.length_pos_iff.2 hne
  obtain ⟨n, hn, hstream⟩ := Decoder3d.streams fits hd one_pos hh hw
  obtain ⟨s, hfeed, -, hlen⟩ := hstream.feed cat_sized (decodeChunk_paced (A := Sized ⟨cfg.zDim, h, w⟩) hx hne) hn 0
  rw [fed_decodeChunk, Nat.sub_add_cancel hpos, List.take_length] at hfeed hlen
  obtain ⟨y, hy, -, hleny, hsame⟩ := Decoder3d.plain_gives fits hd hh hw x hne hx
  refine ⟨_, y, congrArg Prod.fst hfeed, hy, fun heq => ?_, hsame⟩
  rw [← heq, hleny, mul_one] at hlen
  by_contra hcon
  obtain ⟨hr, hone⟩ := not_or.1 hcon
  have htwo : 2 ≤ 2 ^ cfg.timeSteps 0 (cfg.dimMult.length - 1) :=
    Nat.le_self_pow hr 2
  have hmul := Nat.mul_le_mul_right (x.length - 1) htwo
  omega

theorem decoder_plain_iff_videoVae :
    ∃ (d : Decoder3d Pixels) (out y : List Pixels), Decoder3d.init videoVae.forDecoder .ones = .ok d ∧
      ((feed d.cached cat (WanVAE.decodeChunk (List.replicate 2 (.fill ⟨16, 2, 3⟩ 1))) 2).run
        ⟨List.replicate d.countConv3d none, 0⟩).1 = .ok (some out) ∧
      d.plain (List.replicate 2 (.fill ⟨16, 2, 3⟩ 1)) = .ok y ∧ y ≠ out := by
  obtain ⟨_, _, _, hd, -⟩ := Decoder3d.built videoVae_decoderFits NetWeights.ones Nat.one_pos le_rfl le_rfl
  obtain ⟨out, y, hout, hy, hiff⟩ := decoder_plain_iff videoVae_decoderFits hd
    (x := List.replicate 2 (.fill ⟨16, 2, 3⟩ 1)) (h := 2) (w := 3) (by simp)
    (fun a ha => by rw [List.eq_of_mem_replicate ha]; rfl) (by decide) (by decide)
  exact ⟨_, out, y, hd, hout, hy, fun heq => absurd (hiff.1 heq) (by simp; decide)⟩

/-- the same for the encoder, on a clip of whole chunks -/
theorem encoder_plain_iff {cfg : NetConfig} (fits : cfg.EncoderFits) {weights : NetWeights F} {e : Encoder3d F}
    (he : Encoder3d.init cfg weights = .ok e) (htime : cfg.timeSteps 0 (cfg.dimMult.length - 1) ≤ 2) {x : List F}
    {H W N : ℕ} (hlen : x.length = 1 + 4 * N) (hx : ∀ a ∈ x, dim a = ⟨3, H, W⟩)
    (hH : 2 ^ (cfg.dimMult.length - 1) ≤ H) (hW : 2 ^ (cfg.dimMult.length - 1) ≤ W) :
    ∃ out y, ((feed e.cached cat (WanVAE.encodeChunk x) (N + 1)).run ⟨List.replicate e.countConv3d none, 0⟩).1 =
        .ok (some out) ∧ e.plain x = .ok y ∧
      (y = out ↔ cfg.timeSteps 0 (cfg.dimMult.length - 1) = 0 ∨ N = 0) := by
  have hne : x ≠ [] := List.length_pos_iff.1 (by omega)
  have hN : (x.length - 1) / 4 = N := by omega
  have hfour : 2 ^ cfg.timeSteps 0 (cfg.dimMult.length - 1) * (4 / 2 ^ cfg.timeSteps 0 (cfg.dimMult.length - 1)) = 4 :=
    Nat.mul_div_cancel' (pow_dvd_pow 2 htime)
  have hm : 0 < 4 / 2 ^ cfg.timeSteps 0 (cfg.dimMult.length - 1) :=
    Nat.pos_of_ne_zero fun h0 => by rw [h0] at hfour; simp at hfour
  obtain ⟨n, hn, hstream⟩ := Encoder3d.streams fits he hm hH hW
  rw [hfour] at hstream
  have hpaced := encodeChunk_paced (A := Sized ⟨3, H, W⟩) hx hne
  rw [hN] at hpaced
  obtain ⟨s, hfeed, -, hlenout⟩ := hstream.feed cat_sized hpaced hn 0
  rw [fed_encodeChunk, ← hlen, List.take_length] at hfeed hlenout
  obtain ⟨y, hy, -, hleny, hsame⟩ := Encoder3d.plain_gives fits he hH hW x hne hx
  refine ⟨_, y, congrArg Prod.fst hfeed, hy, fun heq => ?_, fun h => hsame (h.imp_right fun h0 => ?_)⟩
  · rw [← heq, hleny, hlen] at hlenout
    exact (chunks_eq_iff htime).1 hlenout.symm
  · rw [hlen, h0]

theorem encoder_plain_iff_videoVae :
    ∃ (e : Encoder3d Pixels) (out y : List Pixels), Encoder3d.init videoVae .ones = .ok e ∧
      ((feed e.cached cat (WanVAE.encodeChunk (List.replicate 5 (.fill ⟨3, 8, 8⟩ 1))) 2).run
        ⟨List.replicate e.countConv3d none, 0⟩).1 = .ok (some out) ∧
      e.plain (List.replicate 5 (.fill ⟨3, 8, 8⟩ 1)) = .ok y ∧ y ≠ out := by
  obtain ⟨_, _, _, he, -⟩ := Encoder3d.built videoVae_encoderFits NetWeights.ones Nat.one_pos le_rfl le_rfl
  obtain ⟨out, y, hout, hy, hiff⟩ := encoder_plain_iff videoVae_encoderFits he (by decide)
    (x := List.replicate 5 (.fill ⟨3, 8, 8⟩ 1)) (H := 8) (W := 8) (N := 1) (by simp)
    (fun a ha => by rw [List.eq_of_mem_replicate ha]; rfl) (by decide) (by decide)
  exact ⟨_, out, y, he, hout, hy, fun heq => absurd (hiff.1 heq) (by decide)⟩

end Viduce.Vae
