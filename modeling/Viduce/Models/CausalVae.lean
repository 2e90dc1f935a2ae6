/-
The causal video autoencoder (`models/vae2_1.py`): the networks that `Encoder3d` and `Decoder3d` build from their configuration.

- `Encoder3d.streams`, `Decoder3d.streams`: for every configuration that fits, the layers fit together, the cache has a
  slot for each that needs one, and chunk by chunk a network gives what it gives on the whole clip.
- `Encoder3d.plain_gives`, `Decoder3d.plain_gives`: what they give without a cache.
-/
import Mathlib.Tactic
import Viduce.Models.Layers

namespace Viduce.Vae

open Viduce.Streaming
open Feature

variable {F : Type} [Feature F]

/-! ## The networks -/

/-- the arguments of `Encoder3d` and `Decoder3d`; `temperal` is `temperal_downsample` or `temperal_upsample` -/
structure NetConfig where
  dim : ℕ
  zDim : ℕ
  dimMult : List ℕ
  numResBlocks : ℕ
  attnScales : List ℚ
  temperal : List Bool
deriving DecidableEq, Repr

/-- the learned functions of a network, by the place of the layer -/
structure NetWeights (F : Type) [Feature F] where
  conv1 : LayerWeights F
  middle : ℕ → LayerWeights F
  /-- layer j of stage i -/
  stage : ℕ → ℕ → LayerWeights F
  head : LayerWeights F

structure Encoder3d (F : Type) [Feature F] where
  conv1 : CausalConv3d F
  downsamples : List (Layer F)
  middle : List (Layer F)
  head : List (Sublayer F)

structure Decoder3d (F : Type) [Feature F] where
  conv1 : CausalConv3d F
  middle : List (Layer F)
  upsamples : List (Layer F)
  head : List (Sublayer F)

/-- n residual blocks, with attention after each if the scale is in `attn_scales`; the first one changes the channels -/
def blocks (weights : ℕ → LayerWeights F) (attn : Bool) (j : ℕ) : ℕ → ℕ → ℕ → List (Layer F)
  | 0, _, _ => []
  | n + 1, inDim, outDim =>
    .residualBlock (.init (weights j) inDim outDim) ::
      ((if attn then [.attentionBlock ((weights j).attention outDim)] else []) ++
        blocks weights attn (j + 1) n outDim outDim)

/-- `self.middle` -/
def middleLayers (weights : ℕ → LayerWeights F) (c : ℕ) : List (Layer F) :=
  [.residualBlock (.init (weights 0) c c), .attentionBlock ((weights 1).attention c), .residualBlock (.init (weights 2) c c)]

/-- `self.head` -/
def headLayers (weights : LayerWeights F) (i o : ℕ) : List (Sublayer F) :=
  [.frameFn (weights.norm 0 i), .causalConv ⟨i, o, 3, 1, 1, weights.conv 0 i o 3⟩]

/-- an index into `temperal_downsample` or `temperal_upsample` -/
def NetConfig.temperalAt (cfg : NetConfig) (i : ℕ) : Except PyErr Bool :=
  match cfg.temperal[i]? with
  | some t => .ok t
  | none => .error ⟨.indexError, "list index out of range"⟩

namespace Encoder3d

/-- the loop that fills `downsamples`, from stage i on -/
def stages (cfg : NetConfig) (weights : ℕ → ℕ → LayerWeights F) (i : ℕ) (scale : ℚ) :
    List (ℕ × ℕ) → Except PyErr (List (Layer F))
  | [] => .ok []
  | (inDim, outDim) :: rest => do
    let layers := blocks (weights i) (scale ∈ cfg.attnScales) 0 cfg.numResBlocks inDim outDim
    if i ≠ cfg.dimMult.length - 1 then
      let t ← cfg.temperalAt i
      let later ← stages cfg weights (i + 1) (scale / 2) rest
      pure (layers ++ .resample (.down (weights i cfg.numResBlocks) outDim t) :: later)
    else
      let later ← stages cfg weights (i + 1) scale rest
      pure (layers ++ later)

def init (cfg : NetConfig) (weights : NetWeights F) : Except PyErr (Encoder3d F) :=
  match cfg.dimMult with
  | [] => .error ⟨.other, "cannot access local variable 'out_dim'"⟩
  | u :: rest => do
    let dims := (1 :: u :: rest).map (cfg.dim * ·)
    let downsamples ← stages cfg weights.stage 0 1 (dims.dropLast.zip dims.tail)
    let outDim := cfg.dim * (u :: rest).getLast (List.cons_ne_nil u rest)
    pure
      { conv1 := ⟨3, cfg.dim * 1, 3, 1, 1, weights.conv1.conv 0 3 (cfg.dim * 1) 3⟩
        downsamples := downsamples
        middle := middleLayers weights.middle outDim
        head := headLayers weights.head outDim cfg.zDim }

/-- `forward` with a cache -/
def cached (e : Encoder3d F) (x : List F) : Py (Slots (CacheItem F)) (List F) := do
  let x ← useSlot e.conv1.cached x
  let x ← chain (e.downsamples.map Layer.cached) x
  let x ← chain (e.middle.map Layer.middle) x
  chain (e.head.map Sublayer.cached) x

/-- `forward` without a cache -/
def plain (e : Encoder3d F) (x : List F) : Except PyErr (List F) := do
  let x ← e.conv1.forward x none
  let x ← plainAll (e.downsamples.map Layer.plain) x
  let x ← plainAll (e.middle.map Layer.plain) x
  plainAll (e.head.map Sublayer.plain) x

/-- what it gives on a whole clip -/
def whole (e : Encoder3d F) (x : List F) : List F :=
  wholeAll (e.head.map Sublayer.whole) (wholeAll (e.middle.map Layer.whole)
    (wholeAll (e.downsamples.map Layer.whole) (e.conv1.whole x)))

/-- `count_conv3d(self.encoder)` -/
def countConv3d (e : Encoder3d F) : ℕ :=
  1 + ((e.downsamples.map Layer.countConv3d).sum + ((e.middle.map Layer.countConv3d).sum +
    (e.head.map Sublayer.countConv3d).sum))

end Encoder3d

namespace Decoder3d

/-- the loop that fills `upsamples`, from stage i on -/
def stages (cfg : NetConfig) (weights : ℕ → ℕ → LayerWeights F) (i : ℕ) (scale : ℚ) :
    List (ℕ × ℕ) → Except PyErr (List (Layer F))
  | [] => .ok []
  | (inDim, outDim) :: rest => do
    let inDim := if i = 1 ∨ i = 2 ∨ i = 3 then inDim / 2 else inDim
    let layers := blocks (weights i) (scale ∈ cfg.attnScales) 0 (cfg.numResBlocks + 1) inDim outDim
    if i ≠ cfg.dimMult.length - 1 then
      let t ← cfg.temperalAt i
      let later ← stages cfg weights (i + 1) (scale * 2) rest
      pure (layers ++ .resample (.up (weights i (cfg.numResBlocks + 1)) outDim t) :: later)
    else
      let later ← stages cfg weights (i + 1) scale rest
      pure (layers ++ later)

/-- the scale of the first stage, `1.0 / 2**(len(dim_mult) - 2)` -/
def firstScale (cfg : NetConfig) : ℚ := 1 / (2 : ℚ) ^ ((cfg.dimMult.length : ℤ) - 2)

def init (cfg : NetConfig) (weights : NetWeights F) : Except PyErr (Decoder3d F) :=
  match cfg.dimMult.reverse with
  | [] => .error ⟨.indexError, "list index out of range"⟩
  | u :: rest => do
    let dims := (u :: u :: rest).map (cfg.dim * ·)
    let upsamples ← stages cfg weights.stage 0 (firstScale cfg) (dims.dropLast.zip dims.tail)
    let outDim := cfg.dim * (u :: rest).getLast (List.cons_ne_nil u rest)
    pure
      { conv1 := ⟨cfg.zDim, cfg.dim * u, 3, 1, 1, weights.conv1.conv 0 cfg.zDim (cfg.dim * u) 3⟩
        middle := middleLayers weights.middle (cfg.dim * u)
        upsamples := upsamples
        head := headLayers weights.head outDim 3 }

/-- `forward` with a cache -/
def cached (d : Decoder3d F) (x : List F) : Py (Slots (CacheItem F)) (List F) := do
  let x ← useSlot d.conv1.cached x
  let x ← chain (d.middle.map Layer.middle) x
  let x ← chain (d.upsamples.map Layer.cached) x
  chain (d.head.map Sublayer.cached) x

/-- `forward` without a cache -/
def plain (d : Decoder3d F) (x : List F) : Except PyErr (List F) := do
  let x ← d.conv1.forward x none
  let x ← plainAll (d.middle.map Layer.plain) x
  let x ← plainAll (d.upsamples.map Layer.plain) x
  plainAll (d.head.map Sublayer.plain) x

/-- what it gives on a whole clip -/
def whole (d : Decoder3d F) (x : List F) : List F :=
  wholeAll (d.head.map Sublayer.whole) (wholeAll (d.upsamples.map Layer.whole)
    (wholeAll (d.middle.map Layer.whole) (d.conv1.whole x)))

/-- `count_conv3d(self.decoder)` -/
def countConv3d (d : Decoder3d F) : ℕ :=
  1 + ((d.middle.map Layer.countConv3d).sum + ((d.upsamples.map Layer.countConv3d).sum +
    (d.head.map Sublayer.countConv3d).sum))

end Decoder3d

/-! ## The layers fit together -/

/-- the frames of a clip of one size -/
def Sized (d : Dim) (a : F) : Prop := dim a = d

/-- each layer takes what the one before it gives: frames from the size d to the size d', in chunks of m and then of m';
r of the layers change time -/
inductive Fits : List (Layer F) → Dim → Dim → ℕ → ℕ → ℕ → Prop where
  | nil (d : Dim) (m : ℕ) : Fits [] d d m m 0
  | residual (weights : LayerWeights F) (i o h w : ℕ) {rest : List (Layer F)} {d' : Dim} {m m' r : ℕ} (hm : 0 < m)
      (hrest : Fits rest ⟨o, h, w⟩ d' m m' r) :
      Fits (.residualBlock (.init weights i o) :: rest) ⟨i, h, w⟩ d' m m' r
  | up (weights : LayerWeights F) (c : ℕ) (t : Bool) {h w : ℕ} {rest : List (Layer F)} {d' : Dim} {m m' r : ℕ}
      (hm : 0 < m) (hh : 1 ≤ h) (hw : 1 ≤ w) (hrest : Fits rest ⟨c / 2, 2 * h, 2 * w⟩ d' (2 ^ t.toNat * m) m' r) :
      Fits (.resample (.up weights c t) :: rest) ⟨c, h, w⟩ d' m m' (t.toNat + r)
  | down (weights : LayerWeights F) (c : ℕ) (t : Bool) {h w : ℕ} {rest : List (Layer F)} {d' : Dim} {m m' r : ℕ}
      (hm : 0 < m) (hh : 2 ≤ h) (hw : 2 ≤ w) (hrest : Fits rest ⟨c, h / 2, w / 2⟩ d' m m' r) :
      Fits (.resample (.down weights c t) :: rest) ⟨c, h, w⟩ d' (2 ^ t.toNat * m) m' (t.toNat + r)

namespace Fits

/-- residual blocks keep the size, and the first one sets the channels -/
theorem blocks (weights : ℕ → LayerWeights F) (j n i o h w : ℕ) {rest : List (Layer F)} {d' : Dim} {m m' r : ℕ}
    (hm : 0 < m) (hrest : Fits rest ⟨o, h, w⟩ d' m m' r) :
    Fits (Vae.blocks weights false j (n + 1) i o ++ rest) ⟨i, h, w⟩ d' m m' r := by
  induction n generalizing i j with
  | zero => exact .residual (weights j) i o h w hm hrest
  | succ n ih => exact .residual (weights j) i o h w hm (ih (j + 1) o)

/-- layers that fit stream, in no more slots than they have convolutions -/
theorem streams {layers : List (Layer F)} {d d' : Dim} {m m' r : ℕ} (h : Fits layers d d' m m' r) :
    ∃ n ≤ (layers.map Layer.countConv3d).sum,
      Streams (chain (layers.map Layer.cached)) n (Sized d) (Sized d') m m' (wholeAll (layers.map Layer.whole)) := by
  induction h with
  | nil d m => exact ⟨0, le_rfl, Streams.chain_nil _ m⟩
  | residual weights i o h w hm _ ih =>
    obtain ⟨n, hn, ih⟩ := ih
    refine ⟨2 + n, ?_, (ResidualBlock.streams weights i o hm h w).chain_cons ih⟩
    rw [List.map_cons, List.sum_cons]
    exact Nat.add_le_add (by simp [Layer.countConv3d, ResidualBlock.init, Sublayer.countConv3d]) hn
  | up weights c t hm hh hw _ ih =>
    obtain ⟨n, hn, ih⟩ := ih
    refine ⟨t.toNat + n, ?_, (Resample.up_streams weights c t hm hh hw).chain_cons ih⟩
    rw [List.map_cons, List.sum_cons]
    exact Nat.add_le_add (by cases t <;> simp [Layer.countConv3d, Resample.up, Resample.init]) hn
  | down weights c t hm hh hw _ ih =>
    obtain ⟨n, hn, ih⟩ := ih
    refine ⟨t.toNat + n, ?_, (Resample.down_streams weights c t hm hh hw).chain_cons ih⟩
    rw [List.map_cons, List.sum_cons]
    exact Nat.add_le_add (by cases t <;> simp [Layer.countConv3d, Resample.down, Resample.init]) hn

end Fits

/-- how many of the stages from i on change time, if n stages follow -/
def NetConfig.timeSteps (cfg : NetConfig) (i n : ℕ) : ℕ := ((cfg.temperal.drop i).take n).count true

theorem NetConfig.timeSteps_succ {cfg : NetConfig} {i : ℕ} {t : Bool} (h : cfg.temperal[i]? = some t) (n : ℕ) :
    cfg.timeSteps i (n + 1) = t.toNat + cfg.timeSteps (i + 1) n := by
  obtain ⟨hi, ht⟩ := List.getElem?_eq_some_iff.1 h
  unfold timeSteps
  rw [List.drop_eq_getElem_cons hi, List.take_succ_cons, List.count_cons, ht, Nat.add_comm]
  cases t <;> rfl

theorem NetConfig.exists_temperal {cfg : NetConfig} {i : ℕ} (h : i < cfg.temperal.length) :
    ∃ t, cfg.temperal[i]? = some t ∧ cfg.temperalAt i = .ok t := by
  refine ⟨cfg.temperal[i], List.getElem?_eq_getElem h, ?_⟩
  rw [temperalAt, List.getElem?_eq_getElem h]

/-- the configurations for which `Encoder3d` works with a cache: attention blocks outside the middle do not take one -/
structure NetConfig.EncoderFits (cfg : NetConfig) : Prop where
  stages : cfg.dimMult ≠ []
  blocks : 0 < cfg.numResBlocks
  temperal : cfg.dimMult.length - 1 ≤ cfg.temperal.length
  noAttention : ∀ k < cfg.dimMult.length, (1 / 2 ^ k : ℚ) ∉ cfg.attnScales

/-- those for which `Decoder3d` does: its constructor halves the channels of stages 1, 2 and 3 only -/
structure NetConfig.DecoderFits (cfg : NetConfig) : Prop where
  stages : cfg.dimMult ≠ []
  atMostFour : cfg.dimMult.length ≤ 4
  temperal : cfg.dimMult.length - 1 ≤ cfg.temperal.length
  noAttention : ∀ k < cfg.dimMult.length, Decoder3d.firstScale cfg * 2 ^ k ∉ cfg.attnScales

/-- the stages of the encoder, by induction on how many are left: each but the last halves the size, and the frames too
if its flag says so -/
theorem Encoder3d.stages_fit {cfg : NetConfig} (weights : ℕ → ℕ → LayerWeights F) (hblocks : 0 < cfg.numResBlocks)
    (htemperal : cfg.dimMult.length - 1 ≤ cfg.temperal.length) (ds : List ℕ) (c d : ℕ) (scale : ℚ) {i m h w : ℕ}
    (hm : 0 < m) (hi : i + ds.length + 1 = cfg.dimMult.length)
    (hattn : ∀ k ≤ ds.length, scale / 2 ^ k ∉ cfg.attnScales) (hh : 2 ^ ds.length ≤ h) (hw : 2 ^ ds.length ≤ w) :
    ∃ layers, stages cfg weights i scale ((c :: d :: ds).dropLast.zip (d :: ds)) = .ok layers ∧
      Fits layers ⟨c, h, w⟩
        ⟨(d :: ds).getLast (List.cons_ne_nil d ds), h / 2 ^ ds.length, w / 2 ^ ds.length⟩
        (2 ^ cfg.timeSteps i ds.length * m) m (cfg.timeSteps i ds.length) := by
  obtain ⟨n, hn⟩ : ∃ n, cfg.numResBlocks = n + 1 := ⟨_, (Nat.succ_pred_eq_of_pos hblocks).symm⟩
  have hscale : decide (scale ∈ cfg.attnScales) = false := by
    simpa using hattn 0 (Nat.zero_le _)
  induction ds generalizing c d i h w scale with
  | nil =>
    have hlast : i = cfg.dimMult.length - 1 := by simp at hi; omega
    refine ⟨blocks (weights i) false 0 (n + 1) c d, ?_, ?_⟩
    · simp [stages, hscale, hn, hlast, pure, Except.pure]
    · have htime : cfg.timeSteps i 0 = 0 := by simp [NetConfig.timeSteps]
      simpa [htime] using Fits.blocks (weights i) 0 n c d h w hm (.nil ⟨d, h, w⟩ m)
  | cons e ds ih =>
    have hlen : (e :: ds).length = ds.length + 1 := rfl
    rw [hlen] at hi hattn hh hw ⊢
    rw [pow_succ] at hh hw
    have hnot : i ≠ cfg.dimMult.length - 1 := by omega
    obtain ⟨t, ht, htAt⟩ := cfg.exists_temperal (i := i) (by omega)
    have hpos : 0 < 2 ^ ds.length := Nat.two_pow_pos _
    have hdeeper : ∀ k ≤ ds.length, scale / 2 / 2 ^ k ∉ cfg.attnScales := by
      intro k hk
      rw [div_div, ← pow_succ']
      exact hattn (k + 1) (by omega)
    obtain ⟨later, hlater, hstream⟩ := ih d e (scale / 2) (i := i + 1) (h := h / 2) (w := w / 2)
      (by omega) hdeeper (by omega) (by omega) (by simpa using hdeeper 0 (Nat.zero_le _))
    refine ⟨blocks (weights i) false 0 (n + 1) c d ++ .resample (.down (weights i cfg.numResBlocks) d t) :: later, ?_, ?_⟩
    · have hzip : (c :: d :: e :: ds).dropLast.zip (d :: e :: ds) = (c, d) :: (d :: e :: ds).dropLast.zip (e :: ds) := rfl
      rw [hzip, stages, hscale, if_pos hnot, htAt, ok_bind, hlater, ok_bind, hn]
      rfl
    · have htime : 2 ^ cfg.timeSteps i (ds.length + 1) * m = 2 ^ t.toNat * (2 ^ cfg.timeSteps (i + 1) ds.length * m) := by
        rw [NetConfig.timeSteps_succ ht, pow_add, mul_assoc]
      have hm' : 0 < 2 ^ cfg.timeSteps (i + 1) ds.length * m := Nat.mul_pos (Nat.two_pow_pos _) hm
      have hsize : ∀ a : ℕ, a / 2 / 2 ^ ds.length = a / 2 ^ (ds.length + 1) := by
        intro a
        rw [Nat.div_div_eq_div_mul, ← pow_succ']
      rw [hsize, hsize] at hstream
      rw [htime, NetConfig.timeSteps_succ ht, List.getLast_cons (List.cons_ne_nil e ds)]
      exact .blocks (weights i) 0 n c d h w (Nat.mul_pos (Nat.two_pow_pos _) hm')
        (.down (weights i cfg.numResBlocks) d t hm' (by omega) (by omega) hstream)

/-- the stages of the decoder: each but the last halves the channels and doubles the size, and the frames too if its flag
says so -/
theorem Decoder3d.stages_fit {cfg : NetConfig} (weights : ℕ → ℕ → LayerWeights F)
    (hfour : cfg.dimMult.length ≤ 4) (htemperal : cfg.dimMult.length - 1 ≤ cfg.temperal.length) (ds : List ℕ) (c d : ℕ)
    (scale : ℚ) {i m h w : ℕ} (hm : 0 < m) (hi : i + ds.length + 1 = cfg.dimMult.length)
    (hattn : ∀ k ≤ ds.length, scale * 2 ^ k ∉ cfg.attnScales) (hh : 1 ≤ h) (hw : 1 ≤ w) :
    ∃ layers, stages cfg weights i scale ((c :: d :: ds).dropLast.zip (d :: ds)) = .ok layers ∧
      Fits layers ⟨if i = 0 then c else c / 2, h, w⟩
        ⟨(d :: ds).getLast (List.cons_ne_nil d ds), 2 ^ ds.length * h, 2 ^ ds.length * w⟩ m
        (2 ^ cfg.timeSteps i ds.length * m) (cfg.timeSteps i ds.length) := by
  have hscale : decide (scale ∈ cfg.attnScales) = false := by
    simpa using hattn 0 (Nat.zero_le _)
  -- the channels the previous stage leaves are those the constructor expects
  have hchannels : (if i = 1 ∨ i = 2 ∨ i = 3 then c / 2 else c) = if i = 0 then c else c / 2 := by
    split_ifs <;> first | rfl | omega
  induction ds generalizing c d i m h w scale with
  | nil =>
    have hlast : i = cfg.dimMult.length - 1 := by simp at hi; omega
    refine ⟨blocks (weights i) false 0 (cfg.numResBlocks + 1) (if i = 0 then c else c / 2) d, ?_, ?_⟩
    · have hzip : ([c, d] : List ℕ).dropLast.zip [d] = [(c, d)] := rfl
      rw [hzip, stages, hscale, if_neg (not_not.2 hlast)]
      simp only [hchannels]
      simp [stages, pure, Except.pure]
    · have htime : cfg.timeSteps i 0 = 0 := by simp [NetConfig.timeSteps]
      simpa [htime] using
        Fits.blocks (weights i) 0 cfg.numResBlocks (if i = 0 then c else c / 2) d h w hm (.nil ⟨d, h, w⟩ m)
  | cons e ds ih =>
    have hlen : (e :: ds).length = ds.length + 1 := rfl
    rw [hlen] at hi hattn ⊢
    have hnot : i ≠ cfg.dimMult.length - 1 := by omega
    obtain ⟨t, ht, htAt⟩ := cfg.exists_temperal (i := i) (by omega)
    have hdeeper : ∀ k ≤ ds.length, scale * 2 * 2 ^ k ∉ cfg.attnScales := by
      intro k hk
      rw [mul_assoc, ← pow_succ']
      exact hattn (k + 1) (by omega)
    obtain ⟨later, hlater, hstream⟩ := ih d e (scale * 2) (i := i + 1) (m := 2 ^ t.toNat * m) (h := 2 * h) (w := 2 * w)
      (Nat.mul_pos (Nat.two_pow_pos _) hm) (by omega) hdeeper (by omega) (by omega)
      (by simpa using hdeeper 0 (Nat.zero_le _)) (by rw [if_pos (by omega), if_neg (by omega)])
    refine ⟨blocks (weights i) false 0 (cfg.numResBlocks + 1) (if i = 0 then c else c / 2) d ++
      .resample (.up (weights i (cfg.numResBlocks + 1)) d t) :: later, ?_, ?_⟩
    · have hzip : (c :: d :: e :: ds).dropLast.zip (d :: e :: ds) = (c, d) :: (d :: e :: ds).dropLast.zip (e :: ds) := rfl
      rw [hzip, stages, hscale, if_pos hnot, htAt, ok_bind, hlater, ok_bind]
      simp only [hchannels]
      rfl
    · have htime : 2 ^ cfg.timeSteps (i + 1) ds.length * (2 ^ t.toNat * m) = 2 ^ cfg.timeSteps i (ds.length + 1) * m := by
        rw [NetConfig.timeSteps_succ ht, pow_add]
        ring
      have hsize : ∀ a : ℕ, 2 ^ ds.length * (2 * a) = 2 ^ (ds.length + 1) * a := fun a => by ring
      rw [htime, hsize, hsize, if_neg (Nat.succ_ne_zero i)] at hstream
      rw [NetConfig.timeSteps_succ ht, List.getLast_cons (List.cons_ne_nil e ds)]
      exact .blocks (weights i) 0 cfg.numResBlocks (if i = 0 then c else c / 2) d h w hm
        (.up (weights i (cfg.numResBlocks + 1)) d t hm hh hw (NetConfig.timeSteps_succ ht ds.length ▸ hstream))

/-! ## Whole networks -/

/-- `self.middle`, where only the residual blocks are handed the cache -/
theorem middle_streams (weights : ℕ → LayerWeights F) (c h w : ℕ) {m : ℕ} (hm : 0 < m) :
    Streams (chain ((middleLayers weights c).map Layer.middle)) 4 (Sized ⟨c, h, w⟩) (Sized ⟨c, h, w⟩) m m
      (wholeAll ((middleLayers weights c).map Layer.whole)) := by
  have hattn := ((weights 1).attention c).streams (κ := CacheItem F) (Nat.zero_le h) (Nat.zero_le w) m
  exact (ResidualBlock.streams (weights 0) c c hm h w).chain_cons
    (hattn.chain_cons ((ResidualBlock.streams (weights 2) c c hm h w).chain_cons (Streams.chain_nil _ m)))

theorem middle_count (weights : ℕ → LayerWeights F) (c : ℕ) :
    4 ≤ ((middleLayers weights c).map Layer.countConv3d).sum := by
  simp [middleLayers, Layer.countConv3d, ResidualBlock.init, Sublayer.countConv3d]

theorem head_streams (weights : LayerWeights F) (i o h w : ℕ) {m : ℕ} (hm : 0 < m) :
    Streams (chain ((headLayers weights i o).map Sublayer.cached)) 1 (Sized ⟨i, h, w⟩) (Sized ⟨o, h, w⟩) m m
      (wholeAll ((headLayers weights i o).map Sublayer.whole)) := by
  have hnorm := (weights.norm 0 i).streams (κ := CacheItem F) (Nat.zero_le h) (Nat.zero_le w) m
  have hconv := CausalConv3d.streams (CausalConv3d.causal_mk (weights.conv 0 i o 3)) hm h w
  exact hnorm.chain_cons (hconv.chain_cons (Streams.chain_nil _ m))

theorem getLast_mul (a u : ℕ) (rest : List ℕ) :
    (a * u :: rest.map (a * ·)).getLast (List.cons_ne_nil _ _) = a * (u :: rest).getLast (List.cons_ne_nil u rest) :=
  List.getLast_map (f := (a * ·)) (l := u :: rest) (List.cons_ne_nil _ _)

/-- the encoder is built, and its layers fit together, from frames of H times W -/
theorem Encoder3d.built {cfg : NetConfig} (fits : cfg.EncoderFits) (weights : NetWeights F) {m H W : ℕ} (hm : 0 < m)
    (hH : 2 ^ (cfg.dimMult.length - 1) ≤ H) (hW : 2 ^ (cfg.dimMult.length - 1) ≤ W) :
    ∃ layers c o, init cfg weights =
        .ok ⟨⟨3, c, 3, 1, 1, weights.conv1.conv 0 3 c 3⟩, layers, middleLayers weights.middle o,
          headLayers weights.head o cfg.zDim⟩ ∧
      Fits layers ⟨c, H, W⟩ ⟨o, H / 2 ^ (cfg.dimMult.length - 1), W / 2 ^ (cfg.dimMult.length - 1)⟩
        (2 ^ cfg.timeSteps 0 (cfg.dimMult.length - 1) * m) m (cfg.timeSteps 0 (cfg.dimMult.length - 1)) := by
  obtain ⟨u, rest, hmult⟩ := List.exists_cons_of_ne_nil fits.stages
  have hlen : cfg.dimMult.length = rest.length + 1 := by rw [hmult]; rfl
  have hpre : cfg.dimMult.length - 1 = rest.length := by omega
  rw [hpre] at hH hW ⊢
  have hmaplen : (rest.map (cfg.dim * ·)).length = rest.length := List.length_map _
  obtain ⟨layers, hlayers, hfit⟩ := stages_fit weights.stage fits.blocks fits.temperal
    (rest.map (cfg.dim * ·)) (cfg.dim * 1) (cfg.dim * u) 1 (i := 0) (h := H) (w := W) hm (by omega)
    (fun k hk => fits.noAttention k (by omega)) (by rwa [hmaplen]) (by rwa [hmaplen])
  rw [hmaplen, getLast_mul] at hfit
  refine ⟨layers, _, _, ?_, hfit⟩
  unfold init
  rw [hmult]
  change (stages cfg weights.stage 0 1 _ >>= _) = _
  rw [show stages cfg weights.stage 0 1 (((1 :: u :: rest).map (cfg.dim * ·)).dropLast.zip
    ((1 :: u :: rest).map (cfg.dim * ·)).tail) = .ok layers from hlayers]
  rfl

/-- **The encoder.** Its cache has slots enough, and chunk by chunk it gives what it gives on the whole clip. -/
theorem Encoder3d.streams {cfg : NetConfig} (fits : cfg.EncoderFits) {weights : NetWeights F} {e : Encoder3d F}
    (he : init cfg weights = .ok e) {m H W : ℕ} (hm : 0 < m) (hH : 2 ^ (cfg.dimMult.length - 1) ≤ H)
    (hW : 2 ^ (cfg.dimMult.length - 1) ≤ W) :
    ∃ n ≤ e.countConv3d, Streams e.cached n (Sized ⟨3, H, W⟩)
      (Sized ⟨cfg.zDim, H / 2 ^ (cfg.dimMult.length - 1), W / 2 ^ (cfg.dimMult.length - 1)⟩)
      (2 ^ cfg.timeSteps 0 (cfg.dimMult.length - 1) * m) m e.whole := by
  obtain ⟨layers, c, o, hinit, hfit⟩ := built fits weights hm hH hW
  obtain rfl := Except.ok.inj (hinit.symm.trans he)
  obtain ⟨n, hn, hstream⟩ := hfit.streams
  have hconv := CausalConv3d.streams (CausalConv3d.causal_mk (weights.conv1.conv 0 3 c 3))
    (Nat.mul_pos (Nat.two_pow_pos (cfg.timeSteps 0 (cfg.dimMult.length - 1))) hm) H W
  have hmiddle := middle_streams weights.middle o (H / 2 ^ (cfg.dimMult.length - 1)) (W / 2 ^ (cfg.dimMult.length - 1)) hm
  have hhead := head_streams weights.head o cfg.zDim (H / 2 ^ (cfg.dimMult.length - 1))
    (W / 2 ^ (cfg.dimMult.length - 1)) hm
  exact ⟨1 + (n + (4 + 1)),
    Nat.add_le_add le_rfl (Nat.add_le_add hn (Nat.add_le_add (middle_count weights.middle o) le_rfl)),
    hconv.comp (hstream.comp (hmiddle.comp hhead))⟩

/-- the decoder is built, and its layers fit together, from latents of h times w -/
theorem Decoder3d.built {cfg : NetConfig} (fits : cfg.DecoderFits) (weights : NetWeights F) {m h w : ℕ} (hm : 0 < m)
    (hh : 1 ≤ h) (hw : 1 ≤ w) :
    ∃ layers c o, init cfg weights =
        .ok ⟨⟨cfg.zDim, c, 3, 1, 1, weights.conv1.conv 0 cfg.zDim c 3⟩, middleLayers weights.middle c, layers,
          headLayers weights.head o 3⟩ ∧
      Fits layers ⟨c, h, w⟩ ⟨o, 2 ^ (cfg.dimMult.length - 1) * h, 2 ^ (cfg.dimMult.length - 1) * w⟩ m
        (2 ^ cfg.timeSteps 0 (cfg.dimMult.length - 1) * m) (cfg.timeSteps 0 (cfg.dimMult.length - 1)) := by
  obtain ⟨u, rest, hmult⟩ := List.exists_cons_of_ne_nil (List.reverse_ne_nil_iff.2 fits.stages)
  have hlen : cfg.dimMult.length = rest.length + 1 := by rw [← List.length_reverse, hmult]; rfl
  have hpre : cfg.dimMult.length - 1 = rest.length := by omega
  rw [hpre]
  have hmaplen : (rest.map (cfg.dim * ·)).length = rest.length := List.length_map _
  obtain ⟨layers, hlayers, hfit⟩ := stages_fit weights.stage fits.atMostFour fits.temperal
    (rest.map (cfg.dim * ·)) (cfg.dim * u) (cfg.dim * u) (firstScale cfg) (i := 0) hm (by omega)
    (fun k hk => fits.noAttention k (by omega)) hh hw
  rw [hmaplen, getLast_mul, if_pos rfl] at hfit
  refine ⟨layers, _, _, ?_, hfit⟩
  unfold init
  rw [hmult]
  change (stages cfg weights.stage 0 (firstScale cfg) _ >>= _) = _
  rw [show stages cfg weights.stage 0 (firstScale cfg) (((u :: u :: rest).map (cfg.dim * ·)).dropLast.zip
    ((u :: u :: rest).map (cfg.dim * ·)).tail) = .ok layers from hlayers]
  rfl

/-- **The decoder.** -/
theorem Decoder3d.streams {cfg : NetConfig} (fits : cfg.DecoderFits) {weights : NetWeights F} {d : Decoder3d F}
    (hd : init cfg weights = .ok d) {m h w : ℕ} (hm : 0 < m) (hh : 1 ≤ h) (hw : 1 ≤ w) :
    ∃ n ≤ d.countConv3d, Streams d.cached n (Sized ⟨cfg.zDim, h, w⟩)
      (Sized ⟨3, 2 ^ (cfg.dimMult.length - 1) * h, 2 ^ (cfg.dimMult.length - 1) * w⟩) m
      (2 ^ cfg.timeSteps 0 (cfg.dimMult.length - 1) * m) d.whole := by
  obtain ⟨layers, c, o, hinit, hfit⟩ := built fits weights hm hh hw
  obtain rfl := Except.ok.inj (hinit.symm.trans hd)
  obtain ⟨n, hn, hstream⟩ := hfit.streams
  have hconv := CausalConv3d.streams (CausalConv3d.causal_mk (weights.conv1.conv 0 cfg.zDim c 3)) hm h w
  have hmiddle := middle_streams weights.middle c h w hm
  have hhead := head_streams weights.head o 3 (2 ^ (cfg.dimMult.length - 1) * h) (2 ^ (cfg.dimMult.length - 1) * w)
    (Nat.mul_pos (Nat.two_pow_pos (cfg.timeSteps 0 (cfg.dimMult.length - 1))) hm)
  exact ⟨1 + (4 + (n + 1)),
    Nat.add_le_add le_rfl (Nat.add_le_add (middle_count weights.middle c) (Nat.add_le_add hn le_rfl)),
    hconv.comp (hmiddle.comp (hstream.comp hhead))⟩

/-! ## Without a cache -/

/-- f gives as many frames as it takes; if none of its layers changes time, or on a single frame, it gives what `whole`
gives -/
def PlainGives (f : List F → Except PyErr (List F)) (whole : List F → List F) (d d' : Dim) (r : ℕ) : Prop :=
  ∀ x, x ≠ [] → (∀ a ∈ x, dim a = d) →
    ∃ y, f x = .ok y ∧ (∀ b ∈ y, dim b = d') ∧ y.length = x.length ∧ (r = 0 ∨ x.length = 1 → y = whole x)

namespace PlainGives

theorem comp {f g : List F → Except PyErr (List F)} {whole whole' : List F → List F} {d d' d'' : Dim} {r r' : ℕ}
    (hf : PlainGives f whole d d' r) (hg : PlainGives g whole' d' d'' r') :
    PlainGives (fun x => f x >>= g) (whole' ∘ whole) d d'' (r + r') := by
  intro x hne hx
  obtain ⟨y, hy, hdy, hleny, hsamey⟩ := hf x hne hx
  have hney : y ≠ [] := by
    rw [← List.length_pos_iff, hleny]
    exact List.length_pos_iff.2 hne
  obtain ⟨z, hz, hdz, hlenz, hsamez⟩ := hg y hney hdy
  refine ⟨z, ?_, hdz, hlenz.trans hleny, fun hsame => ?_⟩
  · change f x >>= g = _
    rw [hy, ok_bind, hz]
  · rw [Function.comp_apply, ← hsamey (by omega), hsamez (by omega)]

theorem nil (d : Dim) : PlainGives (plainAll ([] : List (List F → Except PyErr (List F)))) (wholeAll []) d d 0 :=
  fun x _ hx => ⟨x, rfl, hx, rfl, fun _ => rfl⟩

theorem frameFn {i o least h w : ℕ} {size : ℕ → ℕ} (g : FrameFn F i o least size) (hh : least ≤ h) (hw : least ≤ w) :
    PlainGives g.forward (List.map g.apply) ⟨i, h, w⟩ ⟨o, size h, size w⟩ 0 :=
  fun _ _ hx => ⟨_, g.forward_ok hh hw hx, g.dim_map hh hw hx, List.length_map _, fun _ => rfl⟩

theorem conv {conv : CausalConv3d F} (hc : conv.Causal) (h w : ℕ) :
    PlainGives (fun x => conv.forward x none) conv.whole ⟨conv.inChannels, h, w⟩ ⟨conv.outChannels, h, w⟩ 0 :=
  fun x hne hx => ⟨conv.whole x, CausalConv3d.forward_whole hc hx hne, CausalConv3d.dim_whole hc hx,
    CausalConv3d.length_whole hc hx, fun _ => rfl⟩

theorem residualBlock (weights : LayerWeights F) (i o h w : ℕ) :
    PlainGives (ResidualBlock.init weights i o).plain (ResidualBlock.init weights i o).whole ⟨i, h, w⟩ ⟨o, h, w⟩ 0 := by
  intro x hne hx
  obtain ⟨hok, hdim, hlen⟩ := ResidualBlock.plain_ok weights i o hne hx
  exact ⟨_, hok, hdim, hlen, fun _ => rfl⟩

theorem up (weights : LayerWeights F) (c : ℕ) (t : Bool) {h w : ℕ} (hh : 1 ≤ h) (hw : 1 ≤ w) :
    PlainGives (Resample.up weights c t).plain (Resample.up weights c t).whole ⟨c, h, w⟩ ⟨c / 2, 2 * h, 2 * w⟩
      t.toNat := by
  intro x _ hx
  obtain ⟨hok, hsame⟩ := Resample.up_plain weights c t hh hw hx
  exact ⟨_, hok, (weights.upsample c).dim_map hh hw hx, List.length_map _,
    fun h => (hsame (h.imp_left Bool.toNat_eq_zero.1)).symm⟩

theorem down (weights : LayerWeights F) (c : ℕ) (t : Bool) {h w : ℕ} (hh : 2 ≤ h) (hw : 2 ≤ w) :
    PlainGives (Resample.down weights c t).plain (Resample.down weights c t).whole ⟨c, h, w⟩ ⟨c, h / 2, w / 2⟩
      t.toNat := by
  intro x _ hx
  obtain ⟨hok, hsame⟩ := Resample.down_plain weights c t hh hw hx
  exact ⟨_, hok, (weights.downsample c).dim_map hh hw hx, List.length_map _,
    fun h => (hsame (h.imp_left Bool.toNat_eq_zero.1)).symm⟩

/-- `self.middle` -/
theorem middle (weights : ℕ → LayerWeights F) (c h w : ℕ) :
    PlainGives (plainAll ((middleLayers weights c).map Layer.plain)) (wholeAll ((middleLayers weights c).map Layer.whole))
      ⟨c, h, w⟩ ⟨c, h, w⟩ 0 := by
  have hattn := frameFn ((weights 1).attention c) (Nat.zero_le h) (Nat.zero_le w)
  exact (residualBlock (weights 0) c c h w).comp (hattn.comp ((residualBlock (weights 2) c c h w).comp (nil _)))

/-- `self.head` -/
theorem head (weights : LayerWeights F) (i o h w : ℕ) :
    PlainGives (plainAll ((headLayers weights i o).map Sublayer.plain))
      (wholeAll ((headLayers weights i o).map Sublayer.whole)) ⟨i, h, w⟩ ⟨o, h, w⟩ 0 := by
  have hnorm := frameFn (weights.norm 0 i) (Nat.zero_le h) (Nat.zero_le w)
  have hconv := conv (CausalConv3d.causal_mk (weights.conv 0 i o 3)) h w
  exact hnorm.comp (hconv.comp (nil _))

end PlainGives

theorem Fits.plain {layers : List (Layer F)} {d d' : Dim} {m m' r : ℕ} (h : Fits layers d d' m m' r) :
    PlainGives (plainAll (layers.map Layer.plain)) (wholeAll (layers.map Layer.whole)) d d' r := by
  induction h with
  | nil d m => exact .nil d
  | residual weights i o h w hm _ ih =>
    have hboth := (PlainGives.residualBlock weights i o h w).comp ih
    rwa [Nat.zero_add] at hboth
  | up weights c t hm hh hw _ ih => exact (PlainGives.up weights c t hh hw).comp ih
  | down weights c t hm hh hw _ ih => exact (PlainGives.down weights c t hh hw).comp ih

/-- the encoder without a cache -/
theorem Encoder3d.plain_gives {cfg : NetConfig} (fits : cfg.EncoderFits) {weights : NetWeights F} {e : Encoder3d F}
    (he : init cfg weights = .ok e) {H W : ℕ} (hH : 2 ^ (cfg.dimMult.length - 1) ≤ H)
    (hW : 2 ^ (cfg.dimMult.length - 1) ≤ W) :
    PlainGives e.plain e.whole ⟨3, H, W⟩
      ⟨cfg.zDim, H / 2 ^ (cfg.dimMult.length - 1), W / 2 ^ (cfg.dimMult.length - 1)⟩
      (cfg.timeSteps 0 (cfg.dimMult.length - 1)) := by
  obtain ⟨layers, c, o, hinit, hfit⟩ := built fits weights one_pos hH hW
  obtain rfl := Except.ok.inj (hinit.symm.trans he)
  have hconv := PlainGives.conv (CausalConv3d.causal_mk (weights.conv1.conv 0 3 c 3)) H W
  have hall := hconv.comp (hfit.plain.comp ((PlainGives.middle weights.middle o _ _).comp
    (PlainGives.head weights.head o cfg.zDim _ _)))
  rwa [Nat.zero_add, Nat.add_zero] at hall

/-- the decoder without a cache -/
theorem Decoder3d.plain_gives {cfg : NetConfig} (fits : cfg.DecoderFits) {weights : NetWeights F} {d : Decoder3d F}
    (hd : init cfg weights = .ok d) {h w : ℕ} (hh : 1 ≤ h) (hw : 1 ≤ w) :
    PlainGives d.plain d.whole ⟨cfg.zDim, h, w⟩
      ⟨3, 2 ^ (cfg.dimMult.length - 1) * h, 2 ^ (cfg.dimMult.length - 1) * w⟩
      (cfg.timeSteps 0 (cfg.dimMult.length - 1)) := by
  obtain ⟨layers, c, o, hinit, hfit⟩ := built fits weights one_pos hh hw
  obtain rfl := Except.ok.inj (hinit.symm.trans hd)
  have hconv := PlainGives.conv (CausalConv3d.causal_mk (weights.conv1.conv 0 cfg.zDim c 3)) h w
  have hall := hconv.comp ((PlainGives.middle weights.middle c h w).comp (hfit.plain.comp
    (PlainGives.head weights.head o 3 _ _)))
  rwa [Nat.zero_add, Nat.zero_add, Nat.add_zero] at hall

end Viduce.Vae
