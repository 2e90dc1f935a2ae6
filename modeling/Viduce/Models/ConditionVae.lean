/-
`WanVAECondition_` (`models/vae2_1_cond_v2.py`): the autoencoder whose decoder also takes features of a condition, and the
mask of that condition.

`encode_cond` cuts the condition into chunks of 1, 4, 4, ... frames and runs the condition encoder on each, without a cache.
What each of its layers was given goes through one of `zero_convs`, and is added behind the layer of the decoder that has
the same place when counted from the other end. The decoder takes one frame of latents at a time, through its cache.
-/
import Mathlib.Tactic
import Viduce.Models.WanVae

namespace Viduce.Vae

open Viduce.Streaming
open Feature

variable {F : Type} [Feature F]

/-! ## Model -/

/-- frames whose channels can be put on top of each other -/
class Stack (F : Type) [Feature F] where
  stack : F → F → F
  dim_stack : ∀ a b c c' h w, dim a = ⟨c, h, w⟩ → dim b = ⟨c', h, w⟩ → dim (stack a b) = ⟨c + c', h, w⟩

/-- `torch.cat([a, b], dim=1)` -/
def catChannels [Stack F] (a b : List F) : Except PyErr (List F) :=
  if a.length = b.length ∧ ∀ x ∈ a, ∀ y ∈ b, (dim x).height = (dim y).height ∧ (dim x).width = (dim y).width then
    .ok (a.zipWith Stack.stack b)
  else .error ⟨.runtimeError, "Sizes of tensors must match except in dimension 1"⟩

/-! ### The condition encoder -/

structure ConditionEncoderSymmetric (F : Type) [Feature F] where
  conv1 : CausalConv3d F
  downsamples : List (Layer F)
  middle : List (Layer F)

/-- the arguments of the loop that fills `downsamples`: the one of `Encoder3d`, with one more block in each stage -/
def NetConfig.forCondition (cfg : NetConfig) : NetConfig := { cfg with numResBlocks := cfg.numResBlocks + 1 }

/-- `for module in layers: features.append(h); h = module(h)` -/
def collect : List (List F → Except PyErr (List F)) → List F → Except PyErr (List (List F) × List F)
  | [], h => .ok ([], h)
  | layer :: rest, h => do
    let y ← layer h
    let r ← collect rest y
    pure (h :: r.1, r.2)

namespace ConditionEncoderSymmetric

def init (cfg : NetConfig) (weights : NetWeights F) : Except PyErr (ConditionEncoderSymmetric F) := do
  let dims := (1 :: cfg.dimMult).map (cfg.dim * ·)
  let downsamples ← Encoder3d.stages cfg.forCondition weights.stage 0 1 (dims.dropLast.zip dims.tail)
  let outDim := dims.getLast (by simp [dims])
  pure
    { conv1 := ⟨4, cfg.dim * 1, 3, 1, 1, weights.conv1.conv 0 4 (cfg.dim * 1) 3⟩
      downsamples := downsamples
      middle := middleLayers weights.middle outDim }

/-- `forward`, and the part of `encode_cond` that does the same -/
def features (e : ConditionEncoderSymmetric F) (x : List F) : Except PyErr (List (List F)) := do
  let h ← e.conv1.forward x none
  let downs ← collect (e.downsamples.map Layer.plain) h
  let middle ← collect (e.middle.map Layer.plain) downs.2
  pure (downs.1 ++ downs.2 :: middle.1).reverse

end ConditionEncoderSymmetric

/-! ### The convolutions in between -/

/-- an element of `zero_convs`: `nn.Upsample` where the sizes differ, then the convolution -/
structure ZeroConv (F : Type) [Feature F] where
  upsample : Option ℕ
  conv : CausalConv3d F

structure ConditionWeights (F : Type) [Feature F] where
  vae : VaeWeights F
  condEncoder : NetWeights F
  /-- by the place in `zero_convs` -/
  zeroConv : ℕ → (i o k : ℕ) → Kernel F i o k

/-- the shape of a clip of at least one frame -/
def shape (x : List F) : Dim :=
  match x with
  | a :: _ => dim a
  | [] => ⟨0, 0, 0⟩

namespace ZeroConv

/-- one round of the loop over `zip(source_shapes, target_dims)` -/
def init (weight : (i o k : ℕ) → Kernel F i o k) (s t : Dim) : Except PyErr (ZeroConv F) :=
  let conv : CausalConv3d F := ⟨s.channels, t.channels, 1, 1, 0, weight s.channels t.channels 1⟩
  if s.height ≠ t.height ∨ s.width ≠ t.width then
    if s.height = 0 ∨ s.width = 0 then .error ⟨.other, "division by zero"⟩
    else
      let scaleH : ℚ := t.height / s.height
      let scaleW : ℚ := t.width / s.width
      if scaleH ≠ scaleW ∨ (⌊scaleH⌋ : ℚ) ≠ scaleH then
        .error ⟨.valueError,
          s!"无法处理非整数倍或非对称的空间尺寸变化: torch.Size([1, {s.channels}, 1, {s.height}, {s.width}]) -> " ++
            s!"torch.Size([1, {t.channels}, 1, {t.height}, {t.width}])"⟩
      else .ok ⟨some ⌊scaleH⌋.toNat, conv⟩
  else .ok ⟨none, conv⟩

/-- `nn.Upsample(scale_factor=s, mode='nearest')` stretches all three axes -/
def forward (nearest : (s c : ℕ) → FrameFn F c c 0 (s * ·)) (z : ZeroConv F) (x : List F) : Except PyErr (List F) := do
  let x ← match z.upsample with
    | some s => do
      let x ← (nearest s z.conv.inChannels).forward x
      pure (x.flatMap fun a => List.replicate s a)
    | none => .ok x
  z.conv.forward x none

end ZeroConv

/-- `forward_wrapper` on one layer after another: what each of them gave -/
def outputs : List (List F → Except PyErr (List F)) → List F → Except PyErr (List (List F))
  | [], _ => .ok []
  | layer :: rest, h => do
    let y ← layer h
    let ys ← outputs rest y
    pure (y :: ys)

/-- `captured_dims` of `forward_wrapper`, as clips -/
def Decoder3d.capture (d : Decoder3d F) (x : List F) : Except PyErr (List (List F)) := do
  let h ← d.conv1.forward x none
  let hs ← outputs ((d.middle ++ d.upsamples).map Layer.plain) h
  pure (h :: hs)

/-- the loop over `zip(source_shapes, target_dims)`, from place i on -/
def zeroConvs (weights : ℕ → (i o k : ℕ) → Kernel F i o k) (i : ℕ) :
    List (List F) → List (List F) → Except PyErr (List (ZeroConv F))
  | s :: sources, t :: targets => do
    let z ← ZeroConv.init (weights i) (shape s) (shape t)
    let rest ← zeroConvs weights (i + 1) sources targets
    pure (z :: rest)
  | _, _ => .ok []

/-- `[conv(feat) for conv, feat in zip(self.zero_convs, features)]` -/
def applyZeroConvs (nearest : (s c : ℕ) → FrameFn F c c 0 (s * ·)) :
    List (ZeroConv F) → List (List F) → Except PyErr (List (List F))
  | z :: convs, x :: features => do
    let y ← z.forward nearest x
    let ys ← applyZeroConvs nearest convs features
    pure (y :: ys)
  | _, _ => .ok []

/-! ### The decoder -/

/-- behind `conv1` and in the middle: a feature of more frames is cut -/
def addTrimmed (x feat : List F) : Except PyErr (List F) :=
  addFrames x (if x.length < feat.length then feat.take x.length else feat)

/-- `TimeRepeat.forward` -/
def timeRepeat (feat : List F) (n : ℕ) : List F := if n ≤ 1 then feat else (List.replicate n feat).flatten

/-- behind `upsamples`: a feature of fewer frames is repeated first -/
def addRepeated (x feat : List F) : Except PyErr (List F) :=
  if feat.length < x.length then
    if feat.length = 0 then .error ⟨.other, "integer division or modulo by zero"⟩
    else addTrimmed x (timeRepeat feat (x.length / feat.length))
  else addTrimmed x feat

/-- `forward` with a cache and with `add_feat`; what is left of `add_feat` is returned too -/
def Decoder3d.cachedWith (d : Decoder3d F) (x : List F) (addFeat : List (List F)) :
    Py (Slots (CacheItem F)) (List F × List (List F)) := do
  let x ← useSlot d.conv1.cached x
  let r ← Py.ofExcept (popJoin addTrimmed x addFeat)
  let r ← chainJoin addTrimmed (d.middle.map Layer.middle) r.1 r.2
  let r ← chainJoin addRepeated (d.upsamples.map Layer.cached) r.1 r.2
  let x ← chain (d.head.map Sublayer.cached) r.1
  pure (x, r.2)

/-! ### The autoencoder -/

/-- the encoder, its two convolutions, the decoder and the caches are those of `WanVAE_` -/
structure WanVAECondition (F : Type) [Feature F] where
  vae : WanVAE F
  condEncoder : ConditionEncoderSymmetric F
  zeroConvs : List (ZeroConv F)

namespace WanVAECondition

/-- `_create_zero_convs`: the shapes come from a blank condition of 64 by 64 and from blank latents -/
def createZeroConvs (cfg : NetConfig) (weights : ConditionWeights F) (condEncoder : ConditionEncoderSymmetric F)
    (decoder : Decoder3d F) : Except PyErr (List (ZeroConv F)) := do
  let sources ← condEncoder.features [zeros ⟨4, 64, 64⟩]
  let z := 64 / 2 ^ (cfg.dimMult.length - 1)
  let targets ← decoder.capture [zeros ⟨cfg.zDim, z, z⟩]
  Vae.zeroConvs weights.zeroConv 0 sources targets

def init (cfg : NetConfig) (weights : ConditionWeights F) : Except PyErr (WanVAECondition F) := do
  let vae ← WanVAE.init cfg weights.vae
  let condEncoder ← ConditionEncoderSymmetric.init cfg weights.condEncoder
  let zeroConvs ← createZeroConvs cfg weights condEncoder vae.decoder
  pure ⟨vae, condEncoder, zeroConvs⟩

variable {z : ℕ}

/-- the round of `encode_cond` for one chunk -/
def condFeatures (nearest : (s c : ℕ) → FrameFn F c c 0 (s * ·)) (self : WanVAECondition F) (x : List F) :
    Except PyErr (List (List F)) := do
  let features ← self.condEncoder.features x
  if features.length ≠ self.zeroConvs.length then
    .error ⟨.valueError,
      s!"特征数量 ({features.length}) 与 zero_convs ({self.zeroConvs.length}) 不匹配! " ++
        "请仔细检查 `Encoder3d` 和 `Decoder3d` 的注入点。"⟩
  else applyZeroConvs nearest self.zeroConvs features

def encodeCond [Stack F] (nearest : (s c : ℕ) → FrameFn F c c 0 (s * ·)) (self : WanVAECondition F) (cond msk : List F) :
    Py (Caches F) (List (List (List F))) := do
  self.vae.clearCache
  let x ← Py.ofExcept (catChannels cond msk)
  let iters := (1 + ((x.length : ℤ) - 1) / 4).toNat
  let addFeats ← Py.ofExcept ((List.range iters).mapM fun i => self.condFeatures nearest (WanVAE.encodeChunk x i))
  self.vae.clearCache
  pure addFeats

/-- `add_feat[i]` -/
def featAt (addFeat : List (List (List F))) (i : ℕ) : Except PyErr (List (List F)) :=
  match addFeat[i]? with
  | some feats => .ok feats
  | none => .error ⟨.indexError, "list index out of range"⟩

/-- the decoder on frame i of the latents -/
def decodeRound (self : WanVAECondition F) (x : List F) (addFeat : List (List (List F))) (i : ℕ) :
    Py (Slots (CacheItem F)) (List F) := do
  let feats ← Py.ofExcept (featAt addFeat i)
  let r ← self.vae.decoder.cachedWith (WanVAE.decodeChunk x i) feats
  pure r.1

def decode (self : WanVAECondition F) (scale : Scale F z) (x : List F) (addFeat : List (List (List F))) :
    Py (Caches F) (List F) := do
  self.vae.clearCache
  let x ← Py.ofExcept (scale.undo.forward x)
  let iters := x.length
  let x ← Py.ofExcept (self.vae.conv2.forward x none)
  let out ← Caches.decoding (feedAt (self.decodeRound x addFeat) cat iters)
  match out with
  | none => Py.raise WanVAE.unbound
  | some out => do
    self.vae.clearCache
    pure out

end WanVAECondition

/-! ## Shapes -/

/-- height and width -/
def Dim.size (d : Dim) : ℕ × ℕ := (d.height, d.width)

/-- the channels behind a module, from those before it -/
def Sublayer.channelsAfter : Sublayer F → ℕ → ℕ
  | .frameFn _, c => c
  | .causalConv conv, _ => conv.outChannels

/-- the shape of what a layer gives, from the shape of what it is given -/
def Layer.after : Layer F → Dim → Dim
  | .residualBlock b, d => ⟨b.residual.foldl (fun c s => s.channelsAfter c) d.channels, d.height, d.width⟩
  | .attentionBlock _, d => d
  | .resample .identity, d => d
  | .resample (.upsample2d c _), d | .resample (.upsample3d c _ _), d => ⟨c / 2, 2 * d.height, 2 * d.width⟩
  | .resample (.downsample2d c _), d | .resample (.downsample3d c _ _), d => ⟨c, d.height / 2, d.width / 2⟩

/-- the shapes in front of each of the layers -/
def befores : List (Layer F) → Dim → List Dim
  | [], _ => []
  | layer :: rest, d => d :: befores rest (layer.after d)

/-- the shapes behind each of them -/
def afters : List (Layer F) → Dim → List Dim
  | [], _ => []
  | layer :: rest, d => layer.after d :: afters rest (layer.after d)

@[simp] theorem after_residual (weights : LayerWeights F) (i o : ℕ) (d : Dim) :
    (Layer.residualBlock (.init weights i o)).after d = ⟨o, d.height, d.width⟩ := rfl

@[simp] theorem after_up (weights : LayerWeights F) (c : ℕ) (t : Bool) (d : Dim) :
    (Layer.resample (.up weights c t)).after d = ⟨c / 2, 2 * d.height, 2 * d.width⟩ := by
  cases t <;> rfl

@[simp] theorem after_down (weights : LayerWeights F) (c : ℕ) (t : Bool) (d : Dim) :
    (Layer.resample (.down weights c t)).after d = ⟨c, d.height / 2, d.width / 2⟩ := by
  cases t <;> rfl

theorem afters_append (a b : List (Layer F)) (d : Dim) :
    afters (a ++ b) d = afters a d ++ afters b (a.foldl (fun d layer => layer.after d) d) := by
  induction a generalizing d with
  | nil => rfl
  | cons layer a ih => rw [List.cons_append, afters, afters, ih, List.cons_append, List.foldl_cons]

/-- the channels do not depend on the size -/
theorem after_channels (layer : Layer F) (c h w h' w' : ℕ) :
    (layer.after ⟨c, h, w⟩).channels = (layer.after ⟨c, h', w'⟩).channels := by
  rcases layer with b | g | r
  · rfl
  · rfl
  · cases r <;> rfl

theorem befores_channels (layers : List (Layer F)) {d d' : Dim} (h : d.channels = d'.channels) :
    (befores layers d).map Dim.channels = (befores layers d').map Dim.channels := by
  induction layers generalizing d d' with
  | nil => rfl
  | cons layer rest ih =>
    obtain ⟨c, h₁, w₁⟩ := d
    obtain ⟨_, h₂, w₂⟩ := d'
    obtain rfl : c = _ := h
    simp only [befores, List.map_cons, ih (after_channels layer c h₁ w₁ h₂ w₂)]

theorem afters_channels (layers : List (Layer F)) {d d' : Dim} (h : d.channels = d'.channels) :
    (afters layers d).map Dim.channels = (afters layers d').map Dim.channels := by
  induction layers generalizing d d' with
  | nil => rfl
  | cons layer rest ih =>
    obtain ⟨c, h₁, w₁⟩ := d
    obtain ⟨_, h₂, w₂⟩ := d'
    obtain rfl : c = _ := h
    have hc := after_channels layer c h₁ w₁ h₂ w₂
    simp only [afters, List.map_cons, hc, ih hc]

/-- clips of these shapes, n frames each -/
def Shaped (n : ℕ) (xs : List (List F)) (ds : List Dim) : Prop :=
  List.Forall₂ (fun x d => (∀ a ∈ x, dim a = d) ∧ x.length = n) xs ds

theorem shape_of_dim {x : List F} {d : Dim} (hne : x ≠ []) (hx : ∀ a ∈ x, dim a = d) : shape x = d := by
  obtain ⟨a, x, rfl⟩ := List.exists_cons_of_ne_nil hne
  exact hx a List.mem_cons_self

/-! ### Layers that fit -/

/-- without a cache, from clips of shape d, the layers give clips of the shapes behind them, the last of shape d', in as
many frames -/
def Traces (layers : List (Layer F)) (d d' : Dim) : Prop :=
  ∀ x, x ≠ [] → (∀ a ∈ x, dim a = d) →
    ∃ xs y ys, collect (layers.map Layer.plain) x = .ok (xs, y) ∧ outputs (layers.map Layer.plain) x = .ok ys ∧
      Shaped x.length xs (befores layers d) ∧ Shaped x.length ys (afters layers d) ∧
      y.length = x.length ∧ ∀ a ∈ y, dim a = d'

namespace Traces

theorem nil (d : Dim) : Traces ([] : List (Layer F)) d d := fun x _ hx => ⟨[], x, [], rfl, rfl, .nil, .nil, rfl, hx⟩

theorem cons {layer : Layer F} {rest : List (Layer F)} {d e d' : Dim} {whole : List F → List F} {r : ℕ}
    (hlayer : PlainGives layer.plain whole d e r) (hafter : layer.after d = e) (hrest : Traces rest e d') :
    Traces (layer :: rest) d d' := by
  intro x hne hx
  obtain ⟨z, hz, hdz, hlenz, -⟩ := hlayer x hne hx
  have hnez : z ≠ [] := by
    rw [← List.length_pos_iff, hlenz]
    exact List.length_pos_iff.2 hne
  obtain ⟨xs, y, ys, hcollect, houtputs, hxs, hys, hleny, hdy⟩ := hrest z hnez hdz
  rw [hlenz] at hxs hys hleny
  refine ⟨x :: xs, y, z :: ys, ?_, ?_, ?_, ?_, hleny, hdy⟩
  · rw [List.map_cons, collect, hz, ok_bind, hcollect]
    rfl
  · rw [List.map_cons, outputs, hz, ok_bind, houtputs]
    rfl
  · rw [befores, hafter]
    exact .cons ⟨hx, rfl⟩ hxs
  · rw [afters, hafter]
    exact .cons ⟨hdz, hlenz⟩ hys

/-- `self.middle`, and what follows it -/
theorem middle (weights : ℕ → LayerWeights F) {c h w : ℕ} {rest : List (Layer F)} {d' : Dim}
    (hrest : Traces rest ⟨c, h, w⟩ d') : Traces (middleLayers weights c ++ rest) ⟨c, h, w⟩ d' := by
  have hattn : PlainGives (Layer.attentionBlock ((weights 1).attention c)).plain (List.map ((weights 1).attention c).apply)
      ⟨c, h, w⟩ ⟨c, h, w⟩ 0 := PlainGives.frameFn _ (Nat.zero_le h) (Nat.zero_le w)
  exact cons (PlainGives.residualBlock (weights 0) c c h w) rfl
    (cons hattn rfl (cons (PlainGives.residualBlock (weights 2) c c h w) rfl hrest))

end Traces

theorem Fits.traces {layers : List (Layer F)} {d d' : Dim} {m m' r : ℕ} (h : Fits layers d d' m m' r) :
    Traces layers d d' := by
  induction h with
  | nil d m => exact .nil d
  | residual weights i o h w hm _ ih => exact .cons (PlainGives.residualBlock weights i o h w) rfl ih
  | up weights c t hm hh hw _ ih => exact .cons (PlainGives.up weights c t hh hw) (after_up weights c t _) ih
  | down weights c t hm hh hw _ ih => exact .cons (PlainGives.down weights c t hh hw) (after_down weights c t _) ih

/-! ### The sizes on the way down and on the way up -/

/-- in front of each layer, where j stages of b blocks each are followed by a layer that halves the size, and one is not -/
def sizesDown (b : ℕ) : ℕ → ℕ × ℕ → List (ℕ × ℕ)
  | 0, s => List.replicate b s
  | j + 1, s => List.replicate (b + 1) s ++ sizesDown b j (s.1 / 2, s.2 / 2)

/-- behind each layer, where j stages of b blocks each are followed by a layer that doubles the size, and one is not -/
def sizesUp (b : ℕ) : ℕ → ℕ × ℕ → List (ℕ × ℕ)
  | 0, s => List.replicate b s
  | j + 1, s => List.replicate b s ++ (2 * s.1, 2 * s.2) :: sizesUp b j (2 * s.1, 2 * s.2)

theorem sizesUp_succ (b j : ℕ) (s : ℕ × ℕ) :
    sizesUp b (j + 1) s = sizesUp b j s ++ List.replicate (b + 1) (2 ^ (j + 1) * s.1, 2 ^ (j + 1) * s.2) := by
  induction j generalizing s with
  | zero => rw [sizesUp, sizesUp, sizesUp, List.replicate_succ, zero_add, pow_one]
  | succ j ih =>
    rw [sizesUp, ih, sizesUp, List.append_assoc, List.cons_append, pow_succ 2 (j + 1), mul_assoc, mul_assoc]

/-- the way up is the way down, backwards -/
theorem sizesDown_reverse (b j : ℕ) (s : ℕ × ℕ) : (sizesDown b j (2 ^ j * s.1, 2 ^ j * s.2)).reverse = sizesUp b j s := by
  induction j with
  | zero => simp [sizesDown, sizesUp]
  | succ j ih =>
    have hhalf : ∀ a : ℕ, 2 ^ (j + 1) * a / 2 = 2 ^ j * a := by
      intro a
      rw [pow_succ', mul_assoc, Nat.mul_div_cancel_left _ two_pos]
    rw [sizesUp_succ, sizesDown, List.reverse_append, List.reverse_replicate]
    simp only [hhalf]
    rw [ih]

/-- the size does not depend on the channels -/
theorem after_size (layer : Layer F) {d d' : Dim} (h : d.size = d'.size) : (layer.after d).size = (layer.after d').size := by
  obtain ⟨hh, hw⟩ := Prod.mk.inj h
  rcases layer with b | g | r
  · exact h
  · exact h
  · cases r <;> simp [Layer.after, Dim.size, hh, hw]

theorem befores_size (layers : List (Layer F)) {d d' : Dim} (h : d.size = d'.size) :
    (befores layers d).map Dim.size = (befores layers d').map Dim.size := by
  induction layers generalizing d d' with
  | nil => rfl
  | cons layer rest ih => simp only [befores, List.map_cons, h, ih (after_size layer h)]

theorem afters_size (layers : List (Layer F)) {d d' : Dim} (h : d.size = d'.size) :
    (afters layers d).map Dim.size = (afters layers d').map Dim.size := by
  induction layers generalizing d d' with
  | nil => rfl
  | cons layer rest ih => simp only [afters, List.map_cons, after_size layer h, ih (after_size layer h)]

/-- residual blocks keep the size -/
theorem blocks_befores (weights : ℕ → LayerWeights F) (j n i o : ℕ) (rest : List (Layer F)) (d : Dim) :
    (befores (blocks weights false j n i o ++ rest) d).map Dim.size =
      List.replicate n d.size ++ (befores rest d).map Dim.size := by
  induction n generalizing i j d with
  | zero => rfl
  | succ n ih =>
    change d.size :: (befores (blocks weights false (j + 1) n o o ++ rest) ⟨o, d.height, d.width⟩).map Dim.size = _
    rw [ih, List.replicate_succ, List.cons_append]
    exact congrArg (d.size :: List.replicate n d.size ++ ·) (befores_size rest rfl)

theorem blocks_afters (weights : ℕ → LayerWeights F) (j n i o : ℕ) (rest : List (Layer F)) (d : Dim) :
    (afters (blocks weights false j n i o ++ rest) d).map Dim.size =
      List.replicate n d.size ++ (afters rest d).map Dim.size := by
  induction n generalizing i j d with
  | zero => rfl
  | succ n ih =>
    change d.size :: (afters (blocks weights false (j + 1) n o o ++ rest) ⟨o, d.height, d.width⟩).map Dim.size = _
    rw [ih, List.replicate_succ, List.cons_append]
    exact congrArg (d.size :: List.replicate n d.size ++ ·) (afters_size rest rfl)

/-- the stages of an encoder, by induction on how many are left -/
theorem Encoder3d.stages_befores {cfg : NetConfig} {weights : ℕ → ℕ → LayerWeights F} (ds : List ℕ) (c d : ℕ) {scale : ℚ}
    {i : ℕ} {layers : List (Layer F)} (hi : i + ds.length + 1 = cfg.dimMult.length)
    (hattn : ∀ k ≤ ds.length, scale / 2 ^ k ∉ cfg.attnScales)
    (h : stages cfg weights i scale ((c :: d :: ds).dropLast.zip (d :: ds)) = .ok layers) (e : Dim) :
    (befores layers e).map Dim.size = sizesDown cfg.numResBlocks ds.length e.size := by
  have hscale : decide (scale ∈ cfg.attnScales) = false := by simpa using hattn 0 (Nat.zero_le _)
  induction ds generalizing c d scale i layers e with
  | nil =>
    have hlast : i = cfg.dimMult.length - 1 := by simp at hi; omega
    have hnil := blocks_befores (weights i) 0 cfg.numResBlocks c d [] e
    obtain rfl : blocks (weights i) false 0 cfg.numResBlocks c d = layers := by
      simpa [stages, hscale, hlast, pure, Except.pure] using h
    simpa [sizesDown, befores] using hnil
  | cons d' ds ih =>
    have hlen : (d' :: ds).length = ds.length + 1 := rfl
    rw [hlen] at hi hattn ⊢
    have hnot : i ≠ cfg.dimMult.length - 1 := by omega
    have hdeeper : ∀ k ≤ ds.length, scale / 2 / 2 ^ k ∉ cfg.attnScales := by
      intro k hk
      rw [div_div, ← pow_succ']
      exact hattn (k + 1) (by omega)
    have hzip : (c :: d :: d' :: ds).dropLast.zip (d :: d' :: ds) = (c, d) :: (d :: d' :: ds).dropLast.zip (d' :: ds) := rfl
    rw [hzip, stages, hscale, if_pos hnot] at h
    obtain ⟨t, -, h⟩ := bind_eq_ok.1 h
    obtain ⟨later, hlater, h⟩ := bind_eq_ok.1 h
    obtain rfl := Except.ok.inj h
    rw [blocks_befores, befores, List.map_cons, after_down,
      ih d d' (by omega) hdeeper hlater _ (by simpa using hdeeper 0 (Nat.zero_le _)), sizesDown, List.replicate_succ']
    rw [List.append_assoc, List.singleton_append]
    rfl

theorem Decoder3d.stages_afters {cfg : NetConfig} {weights : ℕ → ℕ → LayerWeights F} (ds : List ℕ) (c d : ℕ) {scale : ℚ}
    {i : ℕ} {layers : List (Layer F)} (hi : i + ds.length + 1 = cfg.dimMult.length)
    (hattn : ∀ k ≤ ds.length, scale * 2 ^ k ∉ cfg.attnScales)
    (h : stages cfg weights i scale ((c :: d :: ds).dropLast.zip (d :: ds)) = .ok layers) (e : Dim) :
    (afters layers e).map Dim.size = sizesUp (cfg.numResBlocks + 1) ds.length e.size := by
  have hscale : decide (scale ∈ cfg.attnScales) = false := by simpa using hattn 0 (Nat.zero_le _)
  induction ds generalizing c d scale i layers e with
  | nil =>
    have hlast : i = cfg.dimMult.length - 1 := by simp at hi; omega
    have hnil := blocks_afters (weights i) 0 (cfg.numResBlocks + 1) (if i = 1 ∨ i = 2 ∨ i = 3 then c / 2 else c) d [] e
    rw [List.dropLast_cons_of_ne_nil (List.cons_ne_nil d []), List.dropLast_singleton, List.zip_cons_cons, List.zip_nil_left,
      stages, hscale, if_neg (not_not.2 hlast)] at h
    obtain rfl := Except.ok.inj h
    simpa [sizesUp, afters] using hnil
  | cons d' ds ih =>
    have hlen : (d' :: ds).length = ds.length + 1 := rfl
    rw [hlen] at hi hattn ⊢
    have hnot : i ≠ cfg.dimMult.length - 1 := by omega
    have hdeeper : ∀ k ≤ ds.length, scale * 2 * 2 ^ k ∉ cfg.attnScales := by
      intro k hk
      rw [mul_assoc, ← pow_succ']
      exact hattn (k + 1) (by omega)
    have hzip : (c :: d :: d' :: ds).dropLast.zip (d :: d' :: ds) = (c, d) :: (d :: d' :: ds).dropLast.zip (d' :: ds) := rfl
    rw [hzip, stages, hscale, if_pos hnot] at h
    obtain ⟨t, -, h⟩ := bind_eq_ok.1 h
    obtain ⟨later, hlater, h⟩ := bind_eq_ok.1 h
    obtain rfl := Except.ok.inj h
    rw [blocks_afters, afters, List.map_cons, after_up,
      ih d d' (by omega) hdeeper hlater _ (by simpa using hdeeper 0 (Nat.zero_le _)), sizesUp]
    rfl

/-! ## The features of a condition -/

/-- the shape behind the last of the layers -/
def lastShape (layers : List (Layer F)) (d : Dim) : Dim := layers.foldl (fun d layer => layer.after d) d

theorem Fits.lastShape {layers : List (Layer F)} {d d' : Dim} {m m' r : ℕ} (h : Fits layers d d' m m' r) :
    Vae.lastShape layers d = d' := by
  induction h with
  | nil d m => rfl
  | residual weights i o h w hm _ ih => exact ih
  | up weights c t hm hh hw _ ih =>
    rw [Vae.lastShape, List.foldl_cons, after_up]
    exact ih
  | down weights c t hm hh hw _ ih =>
    rw [Vae.lastShape, List.foldl_cons, after_down]
    exact ih

/-- the shapes of the features of a condition of h by w -/
def ConditionEncoderSymmetric.dims (e : ConditionEncoderSymmetric F) (h w : ℕ) : List Dim :=
  let d := lastShape e.downsamples ⟨e.conv1.outChannels, h, w⟩
  (befores e.downsamples ⟨e.conv1.outChannels, h, w⟩ ++ d :: befores e.middle d).reverse

/-- the shapes that the decoder adds features to, on latents of h by w -/
def Decoder3d.dims (d : Decoder3d F) (h w : ℕ) : List Dim :=
  ⟨d.conv1.outChannels, h, w⟩ :: afters (d.middle ++ d.upsamples) ⟨d.conv1.outChannels, h, w⟩

/-- what the constructor of the condition encoder has built -/
structure ConditionEncoderSymmetric.Built (cfg : NetConfig) (e : ConditionEncoderSymmetric F) (weights : NetWeights F)
    (c o : ℕ) : Prop where
  conv1 : e.conv1 = ⟨4, c, 3, 1, 1, weights.conv1.conv 0 4 c 3⟩
  middle : e.middle = middleLayers weights.middle o
  fits : ∀ H W, 2 ^ (cfg.dimMult.length - 1) ≤ H → 2 ^ (cfg.dimMult.length - 1) ≤ W →
    ∃ m m' r, Fits e.downsamples ⟨c, H, W⟩ ⟨o, H / 2 ^ (cfg.dimMult.length - 1), W / 2 ^ (cfg.dimMult.length - 1)⟩ m m' r
  sizes : ∀ d : Dim, (befores e.downsamples d).map Dim.size = sizesDown (cfg.numResBlocks + 1) (cfg.dimMult.length - 1) d.size

/-- the condition encoder is built, for a configuration that fits the encoder -/
theorem ConditionEncoderSymmetric.built {cfg : NetConfig} (fits : cfg.EncoderFits) (weights : NetWeights F) :
    ∃ e c o, init cfg weights = .ok e ∧ Built cfg e weights c o := by
  obtain ⟨u, rest, hmult⟩ := List.exists_cons_of_ne_nil fits.stages
  have hlen : cfg.dimMult.length = rest.length + 1 := by rw [hmult]; rfl
  have hpre : cfg.dimMult.length - 1 = rest.length := by omega
  have hmaplen : (rest.map (cfg.dim * ·)).length = rest.length := List.length_map _
  have hattn : ∀ k ≤ (rest.map (cfg.dim * ·)).length, (1 / 2 ^ k : ℚ) ∉ cfg.forCondition.attnScales :=
    fun k hk => fits.noAttention k (by omega)
  have hi : 0 + (rest.map (cfg.dim * ·)).length + 1 = cfg.forCondition.dimMult.length := by
    rw [hmaplen, Nat.zero_add]
    exact hlen.symm
  have hstages : ∀ H W, 2 ^ rest.length ≤ H → 2 ^ rest.length ≤ W →
      ∃ layers, Encoder3d.stages cfg.forCondition weights.stage 0 1
          ((cfg.dim * 1 :: cfg.dim * u :: rest.map (cfg.dim * ·)).dropLast.zip (cfg.dim * u :: rest.map (cfg.dim * ·))) =
            .ok layers ∧
        ∃ m m' r, Fits layers ⟨cfg.dim * 1, H, W⟩
          ⟨(cfg.dim * u :: rest.map (cfg.dim * ·)).getLast (List.cons_ne_nil _ _), H / 2 ^ rest.length,
            W / 2 ^ rest.length⟩ m m' r := by
    intro H W hH hW
    obtain ⟨layers, hlayers, hfit⟩ := @Encoder3d.stages_fit F _ cfg.forCondition weights.stage
      (Nat.succ_pos cfg.numResBlocks) fits.temperal (rest.map (cfg.dim * ·)) (cfg.dim * 1) (cfg.dim * u) 1 0 1
      H W one_pos hi hattn (by rwa [hmaplen]) (by rwa [hmaplen])
    rw [hmaplen] at hfit
    exact ⟨layers, hlayers, _, _, _, hfit⟩
  obtain ⟨layers, hlayers, -⟩ := hstages _ _ le_rfl le_rfl
  refine ⟨⟨⟨4, cfg.dim * 1, 3, 1, 1, weights.conv1.conv 0 4 (cfg.dim * 1) 3⟩, layers,
    middleLayers weights.middle ((cfg.dim * u :: rest.map (cfg.dim * ·)).getLast (List.cons_ne_nil _ _))⟩, _, _, ?_, rfl, rfl,
    fun H W hH hW => ?_, fun d => ?_⟩
  · unfold init
    simp only [hmult]
    rw [show Encoder3d.stages cfg.forCondition weights.stage 0 1 (((1 :: u :: rest).map (cfg.dim * ·)).dropLast.zip
      ((1 :: u :: rest).map (cfg.dim * ·)).tail) = .ok layers from hlayers]
    rfl
  · rw [hpre] at hH hW ⊢
    obtain ⟨layers', hlayers', hfit⟩ := hstages H W hH hW
    obtain rfl := Except.ok.inj (hlayers.symm.trans hlayers')
    exact hfit
  · have hsizes := Encoder3d.stages_befores _ _ _ hi hattn hlayers d
    rw [hmaplen, ← hpre] at hsizes
    exact hsizes

section Condition

variable {cfg : NetConfig} {e : ConditionEncoderSymmetric F} {weights : NetWeights F} {c o : ℕ}

/-- clips in the order the other way round -/
theorem Shaped.reverse {n : ℕ} {xs : List (List F)} {ds : List Dim} (h : Shaped n xs ds) :
    Shaped n xs.reverse ds.reverse := List.rel_reverse h

theorem Shaped.append {n : ℕ} {xs ys : List (List F)} {ds es : List Dim} (h : Shaped n xs ds) (h' : Shaped n ys es) :
    Shaped n (xs ++ ys) (ds ++ es) := List.rel_append h h'

/-- the features of a chunk, in as many frames -/
theorem ConditionEncoderSymmetric.Built.features (built : Built cfg e weights c o) {x : List F} {H W : ℕ} (hne : x ≠ [])
    (hx : ∀ a ∈ x, dim a = ⟨4, H, W⟩) (hH : 2 ^ (cfg.dimMult.length - 1) ≤ H) (hW : 2 ^ (cfg.dimMult.length - 1) ≤ W) :
    ∃ xs, e.features x = .ok xs ∧ Shaped x.length xs (e.dims H W) := by
  obtain ⟨m, m', r, hfit⟩ := built.fits H W hH hW
  have hconv := PlainGives.conv (CausalConv3d.causal_mk (weights.conv1.conv 0 4 c 3)) H W
  obtain ⟨h, hh, hdh, hlenh, -⟩ := hconv x hne hx
  replace hh : (⟨4, c, 3, 1, 1, weights.conv1.conv 0 4 c 3⟩ : CausalConv3d F).forward x none = .ok h := hh
  have hneh : h ≠ [] := by
    rw [← List.length_pos_iff, hlenh]
    exact List.length_pos_iff.2 hne
  obtain ⟨xs, y, -, hcollect, -, hxs, -, hleny, hdy⟩ := hfit.traces h hneh hdh
  have hney : y ≠ [] := by
    rw [← List.length_pos_iff, hleny]
    exact List.length_pos_iff.2 hneh
  have hmiddle := Traces.middle weights.middle
    (Traces.nil ⟨o, H / 2 ^ (cfg.dimMult.length - 1), W / 2 ^ (cfg.dimMult.length - 1)⟩)
  rw [List.append_nil, ← built.middle] at hmiddle
  obtain ⟨ys, _, -, hcollect', -, hys, -⟩ := hmiddle y hney hdy
  refine ⟨(xs ++ y :: ys).reverse, ?_, ?_⟩
  · rw [ConditionEncoderSymmetric.features, built.conv1, hh, ok_bind, hcollect, ok_bind, hcollect']
    rfl
  · rw [hleny, hlenh] at hys
    rw [hlenh] at hxs
    have hout : e.conv1.outChannels = c := by rw [built.conv1]
    rw [dims, hout, hfit.lastShape]
    exact (hxs.append (.cons ⟨hdy, hleny.trans hlenh⟩ hys)).reverse

/-- `_create_zero_convs` need not know the size: the channels are the same for all -/
theorem ConditionEncoderSymmetric.Built.channels (built : Built cfg e weights c o) {H W H' W' : ℕ}
    (hH : 2 ^ (cfg.dimMult.length - 1) ≤ H) (hW : 2 ^ (cfg.dimMult.length - 1) ≤ W)
    (hH' : 2 ^ (cfg.dimMult.length - 1) ≤ H') (hW' : 2 ^ (cfg.dimMult.length - 1) ≤ W') :
    (e.dims H W).map Dim.channels = (e.dims H' W').map Dim.channels := by
  obtain ⟨_, _, _, hfit⟩ := built.fits H W hH hW
  obtain ⟨_, _, _, hfit'⟩ := built.fits H' W' hH' hW'
  have hout : e.conv1.outChannels = c := by rw [built.conv1]
  simp only [dims, hout, hfit.lastShape, hfit'.lastShape, List.map_reverse, List.map_append, List.map_cons]
  have hdowns := befores_channels e.downsamples (show (⟨c, H, W⟩ : Dim).channels = (⟨c, H', W'⟩ : Dim).channels from rfl)
  have hmiddle := befores_channels e.middle (show (⟨o, H / 2 ^ (cfg.dimMult.length - 1), W / 2 ^ (cfg.dimMult.length - 1)⟩ :
    Dim).channels = (⟨o, H' / 2 ^ (cfg.dimMult.length - 1), W' / 2 ^ (cfg.dimMult.length - 1)⟩ : Dim).channels from rfl)
  rw [hdowns, hmiddle]

theorem Decoder3d.channels (d : Decoder3d F) (h w h' w' : ℕ) :
    (d.dims h w).map Dim.channels = (d.dims h' w').map Dim.channels := by
  exact congrArg (d.conv1.outChannels :: ·) (afters_channels (d.middle ++ d.upsamples) rfl)

/-- the sizes of the features -/
theorem ConditionEncoderSymmetric.Built.size (built : Built cfg e weights c o) {h w : ℕ} (hh : 1 ≤ h) (hw : 1 ≤ w) :
    (e.dims (2 ^ (cfg.dimMult.length - 1) * h) (2 ^ (cfg.dimMult.length - 1) * w)).map Dim.size =
      List.replicate 4 (h, w) ++ sizesUp (cfg.numResBlocks + 1) (cfg.dimMult.length - 1) (h, w) := by
  have hpow := Nat.two_pow_pos (cfg.dimMult.length - 1)
  obtain ⟨_, _, _, hfit⟩ := built.fits _ _ (Nat.le_mul_of_pos_right _ hh) (Nat.le_mul_of_pos_right _ hw)
  have hout : e.conv1.outChannels = c := by rw [built.conv1]
  have hlow := Nat.mul_div_cancel_left h hpow
  have hlow' := Nat.mul_div_cancel_left w hpow
  rw [hlow, hlow'] at hfit
  have hup := sizesDown_reverse (cfg.numResBlocks + 1) (cfg.dimMult.length - 1) (h, w)
  simp only [dims, hout, hfit.lastShape, List.map_reverse, List.map_append, List.map_cons, built.sizes]
  rw [List.reverse_append]
  exact congrArg₂ (· ++ ·) (by rw [built.middle]; rfl) hup

end Condition

section Decoder

variable {cfg : NetConfig} {d : Decoder3d F} {weights : NetWeights F}

/-- the stages of a decoder that was built double the size -/
theorem Decoder3d.upsamples_size (fits : cfg.DecoderFits) (hd : init cfg weights = .ok d) (e : Dim) :
    (afters d.upsamples e).map Dim.size = sizesUp (cfg.numResBlocks + 1) (cfg.dimMult.length - 1) e.size := by
  obtain ⟨u, rest, hmult⟩ := List.exists_cons_of_ne_nil (List.reverse_ne_nil_iff.2 fits.stages)
  have hlen : cfg.dimMult.length = rest.length + 1 := by rw [← List.length_reverse, hmult]; rfl
  have hpre : cfg.dimMult.length - 1 = rest.length := by omega
  have hmaplen : (rest.map (cfg.dim * ·)).length = rest.length := List.length_map _
  unfold init at hd
  rw [hmult] at hd
  obtain ⟨layers, hlayers, hpure⟩ := bind_eq_ok.1 hd
  obtain rfl := Except.ok.inj hpure
  have hsizes := stages_afters (rest.map (cfg.dim * ·)) (cfg.dim * u) (cfg.dim * u) (i := 0) (by omega)
    (fun k hk => fits.noAttention k (by omega)) hlayers e
  rw [hmaplen, ← hpre] at hsizes
  exact hsizes

theorem Decoder3d.size (fits : cfg.DecoderFits) (hd : init cfg weights = .ok d) (h w : ℕ) :
    (d.dims h w).map Dim.size = List.replicate 4 (h, w) ++ sizesUp (cfg.numResBlocks + 1) (cfg.dimMult.length - 1) (h, w) := by
  obtain ⟨layers, c, o, hinit, -⟩ := built fits weights one_pos le_rfl le_rfl
  have hups := upsamples_size fits hd
  obtain rfl := Except.ok.inj (hinit.symm.trans hd)
  rw [dims, afters_append, List.map_cons, List.map_append, hups]
  rfl

/-- what the dummy run of `_create_zero_convs` gives -/
theorem Decoder3d.capture_ok (fits : cfg.DecoderFits) (hd : init cfg weights = .ok d) {x : List F} {h w : ℕ} (hne : x ≠ [])
    (hx : ∀ a ∈ x, dim a = ⟨cfg.zDim, h, w⟩) (hh : 1 ≤ h) (hw : 1 ≤ w) :
    ∃ ys, d.capture x = .ok ys ∧ Shaped x.length ys (d.dims h w) := by
  obtain ⟨layers, c, o, hinit, hfit⟩ := built fits weights one_pos hh hw
  obtain rfl := Except.ok.inj (hinit.symm.trans hd)
  have hconv := PlainGives.conv (CausalConv3d.causal_mk (weights.conv1.conv 0 cfg.zDim c 3)) h w
  obtain ⟨y, hy, hdy, hleny, -⟩ := hconv x hne hx
  replace hy : (⟨cfg.zDim, c, 3, 1, 1, weights.conv1.conv 0 cfg.zDim c 3⟩ : CausalConv3d F).forward x none = .ok y := hy
  have hney : y ≠ [] := by
    rw [← List.length_pos_iff, hleny]
    exact List.length_pos_iff.2 hne
  obtain ⟨-, -, ys, -, houtputs, -, hys, -⟩ := Traces.middle weights.middle hfit.traces y hney hdy
  rw [hleny] at hys
  refine ⟨y :: ys, ?_, .cons ⟨hdy, hleny⟩ hys⟩
  simp only [capture, hy, ok_bind, houtputs]
  rfl

end Decoder

/-! ### Through the convolutions in between -/

/-- convolutions from these channels to those, from place i on -/
def connect (weights : ℕ → (i o k : ℕ) → Kernel F i o k) (i : ℕ) : List ℕ → List ℕ → List (ZeroConv F)
  | s :: ss, t :: ts => ⟨none, ⟨s, t, 1, 1, 0, weights i s t 1⟩⟩ :: connect weights (i + 1) ss ts
  | _, _ => []

/-- a frame that changes nothing when it is added -/
def Blank (a : F) : Prop := ∀ x, dim x = dim a → add x a = x

section Connect

variable (weights : ℕ → (i o k : ℕ) → Kernel F i o k)

theorem length_connect (i : ℕ) (ss ts : List ℕ) (h : ss.length = ts.length) : (connect weights i ss ts).length = ss.length := by
  induction ss generalizing i ts with
  | nil => rfl
  | cons s ss ih =>
    obtain ⟨t, ts, rfl⟩ := List.exists_cons_of_length_eq_add_one h.symm
    rw [connect, List.length_cons, ih (i + 1) ts (by simpa using h), List.length_cons]

/-- where the sizes are the same, `zero_convs` only has to turn channels into channels -/
theorem zeroConvs_ok {sources targets : List (List F)} {ss ts : List Dim} {n m : ℕ} (hn : 0 < n) (hm : 0 < m)
    (hs : Shaped n sources ss) (ht : Shaped m targets ts) (hsize : ss.map Dim.size = ts.map Dim.size) (i : ℕ) :
    zeroConvs weights i sources targets = .ok (connect weights i (ss.map Dim.channels) (ts.map Dim.channels)) := by
  have hshape : ∀ {k : ℕ} {x : List F} {d : Dim}, 0 < k → (∀ a ∈ x, dim a = d) ∧ x.length = k → shape x = d :=
    fun hk hx => shape_of_dim (List.length_pos_iff.1 (hx.2 ▸ hk)) hx.1
  induction hs generalizing targets ts i with
  | nil => rfl
  | @cons x s sources ss hx hs ih =>
    cases ht with
    | nil => cases hsize
    | @cons y t targets ts hy ht =>
      obtain ⟨hsame, hrest⟩ := List.cons.inj hsize
      obtain ⟨hheight, hwidth⟩ := Prod.mk.inj hsame
      have hinit : ZeroConv.init (weights i) s t =
          .ok ⟨none, ⟨s.channels, t.channels, 1, 1, 0, weights i s.channels t.channels 1⟩⟩ :=
        if_neg (by simp [hheight, hwidth])
      rw [zeroConvs, hshape hn hx, hshape hm hy, hinit, ok_bind, ih ht hrest (i + 1)]
      rfl

/-- features of these shapes become features of those, in as many frames; blank ones, if the weights are blank -/
theorem applyZeroConvs_ok (nearest : (s c : ℕ) → FrameFn F c c 0 (s * ·)) {xs : List (List F)} {ss ts : List Dim} {n : ℕ}
    (hn : 0 < n) (hs : Shaped n xs ss) (hsize : ss.map Dim.size = ts.map Dim.size) (i : ℕ) :
    ∃ ys, applyZeroConvs nearest (connect weights i (ss.map Dim.channels) (ts.map Dim.channels)) xs = .ok ys ∧
      Shaped n ys ts ∧ ((∀ p i o v, Blank ((weights p i o 1).apply v)) → ∀ y ∈ ys, ∀ a ∈ y, Blank a) := by
  induction hs generalizing ts i with
  | nil =>
    obtain rfl : ts = [] := by simpa using hsize.symm
    exact ⟨[], rfl, .nil, fun _ => by simp⟩
  | @cons x s xs ss hx hs ih =>
    cases ts with
    | nil => cases hsize
    | cons t ts =>
      obtain ⟨hsame, hrest⟩ := List.cons.inj hsize
      obtain ⟨hheight, hwidth⟩ := Prod.mk.inj hsame
      obtain ⟨ys, hys, hshaped, hblank⟩ := ih hrest (i + 1)
      set conv : CausalConv3d F := ⟨s.channels, t.channels, 1, 1, 0, weights i s.channels t.channels 1⟩ with hconv
      have hsingle : conv.Single := ⟨rfl, rfl, rfl⟩
      have hdx : ∀ a ∈ x, dim a = ⟨conv.inChannels, s.height, s.width⟩ := hx.1
      have hforward := CausalConv3d.forward_single hsingle hdx (List.length_pos_iff.1 (hx.2 ▸ hn))
      refine ⟨(x.map fun a => conv.weight.apply [a]) :: ys, ?_, .cons ⟨?_, ?_⟩ hshaped, ?_⟩
      · rw [List.map_cons, List.map_cons, connect, applyZeroConvs, ZeroConv.forward]
        simp only [ok_bind]
        rw [← hconv, hforward, ok_bind, hys]
        rfl
      · intro b hb
        obtain ⟨a, ha, rfl⟩ := List.mem_map.1 hb
        refine (CausalConv3d.dim_single hsingle (hdx a ha)).trans ?_
        rw [hheight, hwidth]
      · rw [List.length_map, hx.2]
      · intro hweights y hy a ha
        rcases List.mem_cons.1 hy with rfl | hy
        · obtain ⟨b, -, rfl⟩ := List.mem_map.1 ha
          exact hweights i _ _ _
        · exact hblank hweights y hy a ha

end Connect

/-! ## The decoder with features -/

/-- a feature for frames of the shape d: one frame for the first latent, 4 for a later one -/
def CondFits (d : Dim) (started : Bool) (feat : List F) : Prop :=
  (∀ a ∈ feat, dim a = d) ∧ feat.length = chunkLength 4 started

/-- a feature that changes nothing -/
def BlankFeature (feat : List F) : Prop := ∀ a ∈ feat, Blank a

/-- frames of the shape of those they are added to, blank ones without effect -/
theorem addFrames_joins {y z : List F} {d : Dim} (hy : ∀ a ∈ y, dim a = d) (hz : ∀ a ∈ z, dim a = d)
    (hlen : y.length = z.length) :
    ∃ r, addFrames y z = .ok r ∧ (∀ a ∈ r, dim a = d) ∧ r.length = y.length ∧ (BlankFeature z → r = y) := by
  refine ⟨y.zipWith add z, addFrames_ok hy hz hlen, dim_zipWith hy hz, by rw [List.length_zipWith, hlen, Nat.min_self], ?_⟩
  intro hblank
  refine List.ext_getElem (by rw [List.length_zipWith, hlen, Nat.min_self]) fun i h₁ h₂ => ?_
  rw [List.getElem_zipWith]
  exact hblank _ (List.getElem_mem _) _ ((hy _ (List.getElem_mem _)).trans (hz _ (List.getElem_mem _)).symm)

/-- a feature of at least as many frames -/
theorem addTrimmed_ok {y z : List F} {d : Dim} (hy : ∀ a ∈ y, dim a = d) (hz : ∀ a ∈ z, dim a = d)
    (hlen : y.length ≤ z.length) :
    ∃ r, addTrimmed y z = .ok r ∧ (∀ a ∈ r, dim a = d) ∧ r.length = y.length ∧ (BlankFeature z → r = y) := by
  unfold addTrimmed
  split_ifs with h
  · obtain ⟨r, hr, hd, hrlen, hblank⟩ := addFrames_joins hy (z := z.take y.length)
      (fun a ha => hz a (List.mem_of_mem_take ha)) (by rw [List.length_take, min_eq_left hlen])
    exact ⟨r, hr, hd, hrlen, fun hb => hblank fun a ha => hb a (List.mem_of_mem_take ha)⟩
  · exact addFrames_joins hy hz (by omega)

/-- behind `conv1` and in the middle, where a latent is one frame -/
theorem addTrimmed_joins (d : Dim) : Joins (F := F) addTrimmed BlankFeature (CondFits d) (Sized d) 1 := by
  rintro started y feat hy hlen ⟨hfeat, hfeatlen⟩
  refine addTrimmed_ok hy hfeat ?_
  rw [hlen, hfeatlen]
  cases started <;> simp [chunkLength]

omit [Feature F] in
theorem mem_timeRepeat {feat : List F} {n : ℕ} {a : F} (h : a ∈ timeRepeat feat n) : a ∈ feat := by
  unfold timeRepeat at h
  split_ifs at h
  · exact h
  · obtain ⟨l, hl, ha⟩ := List.mem_flatten.1 h
    rwa [List.eq_of_mem_replicate hl] at ha

omit [Feature F] in
theorem length_timeRepeat (feat : List F) {n : ℕ} (hn : 0 < n) : (timeRepeat feat n).length = n * feat.length := by
  unfold timeRepeat
  split_ifs with h
  · obtain rfl : n = 1 := by omega
    rw [one_mul]
  · simp

/-- behind `upsamples`, where a later latent is a power of two of frames -/
theorem addRepeated_joins (d : Dim) (j : ℕ) : Joins (F := F) addRepeated BlankFeature (CondFits d) (Sized d) (2 ^ j) := by
  rintro started y feat hy hlen ⟨hfeat, hfeatlen⟩
  unfold addRepeated
  split_ifs with hshort hzero
  · rw [hfeatlen] at hzero
    cases started <;> simp [chunkLength] at hzero
  · -- more frames than the feature has: 4 divides them
    have hdvd : feat.length ∣ y.length := by
      rw [hlen, hfeatlen] at hshort ⊢
      cases started with
      | false => exact dvd_rfl
      | true =>
        have hj : 2 ^ 2 < 2 ^ j := hshort
        exact pow_dvd_pow 2 ((Nat.pow_lt_pow_iff_right one_lt_two).1 hj).le
    have hpos : 0 < y.length / feat.length := Nat.div_pos hshort.le (Nat.pos_of_ne_zero hzero)
    obtain ⟨r, hr, hd, hrlen, hblank⟩ := addTrimmed_ok hy (z := timeRepeat feat (y.length / feat.length))
      (fun a ha => hfeat a (mem_timeRepeat ha)) (by rw [length_timeRepeat _ hpos, Nat.div_mul_cancel hdvd])
    exact ⟨r, hr, hd, hrlen, fun hb => hblank fun a ha => hb a (mem_timeRepeat ha)⟩
  · exact addTrimmed_ok hy hfeat (not_lt.1 hshort)

/-- layers that fit serve, with a feature behind each -/
theorem Fits.serves {layers : List (Layer F)} {d d' : Dim} {m m' r : ℕ} (h : Fits layers d d' m m' r)
    (hm : ∃ j, m = 2 ^ j) :
    ∃ n ≤ (layers.map Layer.countConv3d).sum,
      Serves (chainJoin addRepeated (layers.map Layer.cached)) (chain (layers.map Layer.cached)) BlankFeature
        ((afters layers d).map CondFits) n (Sized d) (Sized d') m m' := by
  induction h with
  | nil d m => exact ⟨0, le_rfl, Serves.chainJoin_nil _ _ _ m⟩
  | residual weights i o h w hpos _ ih =>
    obtain ⟨n, hn, ih⟩ := ih hm
    obtain ⟨j, rfl⟩ := hm
    refine ⟨2 + n, ?_, Serves.chainJoin_cons (ResidualBlock.streams weights i o hpos h w) (addRepeated_joins _ j) ih⟩
    rw [List.map_cons, List.sum_cons]
    exact Nat.add_le_add (by simp [Layer.countConv3d, ResidualBlock.init, Sublayer.countConv3d]) hn
  | up weights c t hpos hh hw _ ih =>
    obtain ⟨j, rfl⟩ := hm
    have hj : 2 ^ t.toNat * 2 ^ j = 2 ^ (t.toNat + j) := (pow_add 2 _ _).symm
    obtain ⟨n, hn, ih⟩ := ih ⟨t.toNat + j, hj⟩
    refine ⟨t.toNat + n, ?_, ?_⟩
    · rw [List.map_cons, List.sum_cons]
      exact Nat.add_le_add (by cases t <;> simp [Layer.countConv3d, Resample.up, Resample.init]) hn
    · rw [afters, List.map_cons, after_up]
      exact Serves.chainJoin_cons (Resample.up_streams weights c t hpos hh hw) (hj ▸ addRepeated_joins _ (t.toNat + j)) ih
  | down weights c t hpos hh hw _ ih =>
    obtain ⟨j, hj⟩ := hm
    obtain ⟨k, -, rfl⟩ := (Nat.dvd_prime_pow Nat.prime_two).1 (Dvd.intro_left _ hj)
    obtain ⟨n, hn, ih⟩ := ih ⟨k, rfl⟩
    refine ⟨t.toNat + n, ?_, ?_⟩
    · rw [List.map_cons, List.sum_cons]
      exact Nat.add_le_add (by cases t <;> simp [Layer.countConv3d, Resample.down, Resample.init]) hn
    · rw [afters, List.map_cons, after_down]
      exact Serves.chainJoin_cons (Resample.down_streams weights c t hpos hh hw) (addRepeated_joins _ k) ih

/-- **The decoder with features.** Its cache has slots enough, and it takes a feature for each of the shapes it adds to. -/
theorem Decoder3d.serves {cfg : NetConfig} (fits : cfg.DecoderFits) {weights : NetWeights F} {d : Decoder3d F}
    (hd : init cfg weights = .ok d) {h w : ℕ} (hh : 1 ≤ h) (hw : 1 ≤ w) :
    ∃ n ≤ d.countConv3d, Serves d.cachedWith d.cached BlankFeature ((d.dims h w).map CondFits) n (Sized ⟨cfg.zDim, h, w⟩)
      (Sized ⟨3, 2 ^ (cfg.dimMult.length - 1) * h, 2 ^ (cfg.dimMult.length - 1) * w⟩) 1
      (2 ^ cfg.timeSteps 0 (cfg.dimMult.length - 1)) := by
  obtain ⟨layers, c, o, hinit, hfit⟩ := built fits weights one_pos hh hw
  obtain rfl := Except.ok.inj (hinit.symm.trans hd)
  rw [mul_one] at hfit
  obtain ⟨n, hn, hups⟩ := hfit.serves ⟨0, rfl⟩
  have hconv := CausalConv3d.streams (CausalConv3d.causal_mk (weights.conv1.conv 0 cfg.zDim c 3)) one_pos h w
  have hattn := ((weights.middle 1).attention c).streams (κ := CacheItem F) (Nat.zero_le h) (Nat.zero_le w) 1
  have hmiddle : Serves (chainJoin addTrimmed ((middleLayers weights.middle c).map Layer.middle))
      (chain ((middleLayers weights.middle c).map Layer.middle)) BlankFeature
      ((afters (middleLayers weights.middle c) ⟨c, h, w⟩).map CondFits) 4 (Sized ⟨c, h, w⟩) (Sized ⟨c, h, w⟩) 1 1 :=
    Serves.chainJoin_cons (ResidualBlock.streams (weights.middle 0) c c one_pos h w) (addTrimmed_joins _)
      (Serves.chainJoin_cons hattn (addTrimmed_joins _)
        (Serves.chainJoin_cons (ResidualBlock.streams (weights.middle 2) c c one_pos h w) (addTrimmed_joins _)
          (Serves.chainJoin_nil _ _ _ 1)))
  have hhead := head_streams weights.head o 3 (2 ^ (cfg.dimMult.length - 1) * h) (2 ^ (cfg.dimMult.length - 1) * w)
    (Nat.two_pow_pos (cfg.timeSteps 0 (cfg.dimMult.length - 1)))
  have hall := Serves.comp (Serves.join_one hconv (addTrimmed_joins ⟨c, h, w⟩))
    (hmiddle.comp (hups.comp (Serves.of_streams hhead)))
  refine ⟨1 + (4 + (n + 1)),
    Nat.add_le_add le_rfl (Nat.add_le_add (middle_count weights.middle c) (Nat.add_le_add hn le_rfl)), ?_⟩
  rw [List.append_nil, ← List.map_append] at hall
  rw [dims, afters_append]
  simp only [Py.bind_assoc] at hall
  exact hall

end Viduce.Vae
