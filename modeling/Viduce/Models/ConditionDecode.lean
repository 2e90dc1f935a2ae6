/-
Decoding with a condition: `encode_cond` and then `decode` of `WanVAECondition_` (`models/vae2_1_cond_v2.py`).

- `code_cond`: for every configuration that fits, the constructor succeeds, and decoding succeeds exactly if there is a chunk
  of the condition for each latent; then it gives as many frames as without a condition.
- `code_cond_untrained`: as long as `zero_convs` give blank frames, as the constructor leaves them, the condition makes no
  difference.
- `code_cond_prefix`: what is decoded from the first latents depends on their chunks of the condition only.
-/
import Mathlib.Tactic
import Viduce.Models.ConditionVae

namespace Viduce.Vae

open Viduce.Streaming
open Feature

variable {F : Type} [Feature F]

/-! ## The constructor -/

/-- what the constructor has built -/
structure WanVAECondition.Built (cfg : NetConfig) (weights : ConditionWeights F) (model : WanVAECondition F) : Prop where
  vae : WanVAE.init cfg weights.vae = .ok model.vae
  condEncoder : ∃ c o, ConditionEncoderSymmetric.Built cfg model.condEncoder weights.condEncoder c o
  zeroConvs : ∀ h w, 1 ≤ h → 1 ≤ w → model.zeroConvs = connect weights.zeroConv 0
    ((model.condEncoder.dims (2 ^ (cfg.dimMult.length - 1) * h) (2 ^ (cfg.dimMult.length - 1) * w)).map Dim.channels)
    ((model.vae.decoder.dims h w).map Dim.channels)

section Constructor

variable {cfg : NetConfig} {weights : ConditionWeights F}

/-- the shapes of the features and those they are added to differ in the channels only -/
theorem dims_size (dec : cfg.forDecoder.DecoderFits) {e : ConditionEncoderSymmetric F} {cw : NetWeights F} {c o : ℕ}
    (he : ConditionEncoderSymmetric.Built cfg e cw c o) {d : Decoder3d F} {dw : NetWeights F}
    (hd : Decoder3d.init cfg.forDecoder dw = .ok d) {h w : ℕ} (hh : 1 ≤ h) (hw : 1 ≤ w) :
    (e.dims (2 ^ (cfg.dimMult.length - 1) * h) (2 ^ (cfg.dimMult.length - 1) * w)).map Dim.size =
      (d.dims h w).map Dim.size := (he.size hh hw).trans (Decoder3d.size dec hd h w).symm

/-- **The constructor.** It succeeds for a configuration that fits both networks. -/
theorem WanVAECondition.init_built (enc : cfg.EncoderFits) (dec : cfg.forDecoder.DecoderFits) (weights : ConditionWeights F) :
    ∃ self, init cfg weights = .ok self ∧ Built cfg weights self := by
  set k := cfg.dimMult.length - 1 with hk
  have hk3 : k ≤ 3 := by
    have hfour := dec.atMostFour
    change cfg.dimMult.length ≤ 4 at hfour
    omega
  have hz : 2 ^ k * (64 / 2 ^ k) = 64 := Nat.mul_div_cancel' (pow_dvd_pow 2 (hk3.trans (by decide : 3 ≤ 6)))
  have hzpos : 1 ≤ 64 / 2 ^ k := by
    rcases Nat.eq_zero_or_pos (64 / 2 ^ k) with h0 | hpos
    · rw [h0] at hz
      cases hz
    · exact hpos
  have hle : ∀ {a : ℕ}, 1 ≤ a → 2 ^ k ≤ 2 ^ k * a := fun ha => Nat.le_mul_of_pos_right _ ha
  have h64 : 2 ^ k ≤ 64 := (hle hzpos).trans hz.le
  obtain ⟨vae, hvae⟩ := WanVAE.init_ok enc dec weights.vae
  have hdecoder := (WanVAE.built hvae).decoder
  obtain ⟨e, c, o, he, hbuilt⟩ := ConditionEncoderSymmetric.built enc weights.condEncoder
  obtain ⟨sources, hsources, hshaped⟩ := hbuilt.features (x := [zeros ⟨4, 64, 64⟩]) (H := 64) (W := 64)
    (List.cons_ne_nil _ _) (by simp [dim_zeros]) h64 h64
  obtain ⟨targets, htargets, hshaped'⟩ := Decoder3d.capture_ok dec hdecoder (x := [zeros ⟨cfg.zDim, 64 / 2 ^ k, 64 / 2 ^ k⟩])
    (h := 64 / 2 ^ k) (w := 64 / 2 ^ k) (List.cons_ne_nil _ _)
    (fun a ha => by rw [List.mem_singleton.1 ha, dim_zeros]; rfl) hzpos hzpos
  have hsize := dims_size dec hbuilt hdecoder hzpos hzpos
  rw [← hk, hz] at hsize
  have hconvs := zeroConvs_ok weights.zeroConv (n := 1) (m := 1) one_pos one_pos hshaped hshaped' hsize 0
  refine ⟨⟨vae, e, connect weights.zeroConv 0 ((e.dims 64 64).map Dim.channels)
    ((vae.decoder.dims (64 / 2 ^ k) (64 / 2 ^ k)).map Dim.channels)⟩, ?_, hvae, ⟨c, o, hbuilt⟩, fun h w hh hw => ?_⟩
  · rw [init, hvae, ok_bind, he, ok_bind, createZeroConvs, hsources, ok_bind]
    simp only [← hk, htargets, ok_bind, hconvs]
    rfl
  · have hsame := hbuilt.channels (hle hh) (hle hw) h64 h64
    rw [← hk, hsame, Decoder3d.channels vae.decoder h w (64 / 2 ^ k) (64 / 2 ^ k)]

theorem WanVAECondition.built (enc : cfg.EncoderFits) (dec : cfg.forDecoder.DecoderFits) {self : WanVAECondition F}
    (h : init cfg weights = .ok self) : Built cfg weights self := by
  obtain ⟨self', h', hbuilt⟩ := init_built enc dec weights
  obtain rfl := Except.ok.inj (h'.symm.trans h)
  exact hbuilt

end Constructor

/-! ## Features of a condition -/

section Features

variable {cfg : NetConfig} {weights : ConditionWeights F} {self : WanVAECondition F}

/-- weights that give blank frames, as `zero_module` leaves them -/
def Untrained (weights : ConditionWeights F) : Prop := ∀ p i o v, Blank ((weights.zeroConv p i o 1).apply v)

/-- the features of one chunk fit the decoder, in as many frames -/
theorem WanVAECondition.Built.condFeatures_ok (built : Built cfg weights self) (dec : cfg.forDecoder.DecoderFits)
    (nearest : (s c : ℕ) → FrameFn F c c 0 (s * ·)) {x : List F} {h w : ℕ} (hne : x ≠ []) (hh : 1 ≤ h) (hw : 1 ≤ w)
    (hx : ∀ a ∈ x, dim a = ⟨4, 2 ^ (cfg.dimMult.length - 1) * h, 2 ^ (cfg.dimMult.length - 1) * w⟩) :
    ∃ ys, self.condFeatures nearest x = .ok ys ∧ Shaped x.length ys (self.vae.decoder.dims h w) ∧
      (Untrained weights → ∀ y ∈ ys, BlankFeature y) := by
  obtain ⟨c, o, he⟩ := built.condEncoder
  obtain ⟨xs, hxs, hshaped⟩ := he.features hne hx (Nat.le_mul_of_pos_right _ hh) (Nat.le_mul_of_pos_right _ hw)
  have hsize := dims_size dec he (WanVAE.built built.vae).decoder hh hw
  obtain ⟨ys, hys, hshaped', hblank⟩ := applyZeroConvs_ok weights.zeroConv nearest
    (List.length_pos_iff.2 hne) hshaped hsize 0
  refine ⟨ys, ?_, hshaped', hblank⟩
  have hlen : xs.length = self.zeroConvs.length := by
    have hdims := congrArg List.length hsize
    simp only [List.length_map] at hdims
    rw [built.zeroConvs h w hh hw, length_connect _ _ _ _ (by simpa using hdims), List.length_map]
    exact hshaped.length_eq
  rw [WanVAECondition.condFeatures, hxs, ok_bind, if_neg (not_not.2 hlen), built.zeroConvs h w hh hw, hys]

/-- the condition and its mask, channels on top of each other -/
def stacked [Stack F] (cond msk : List F) : List F := cond.zipWith Stack.stack msk

/-- a condition of RGB frames and a mask of one channel, in a size -/
structure Condition (cond msk : List F) (H W : ℕ) : Prop where
  nonempty : cond ≠ []
  length : cond.length = msk.length
  cond : ∀ a ∈ cond, dim a = ⟨3, H, W⟩
  msk : ∀ a ∈ msk, dim a = ⟨1, H, W⟩

variable [Stack F] {cond msk : List F} {H W : ℕ}

theorem Condition.catChannels_ok (hc : Condition cond msk H W) :
    catChannels cond msk = .ok (stacked cond msk) ∧ (stacked cond msk).length = cond.length ∧
      ∀ a ∈ stacked cond msk, dim a = ⟨4, H, W⟩ := by
  refine ⟨if_pos ⟨hc.length, fun a ha b hb => by rw [hc.cond a ha, hc.msk b hb]; exact ⟨rfl, rfl⟩⟩, ?_, fun a ha => ?_⟩
  · rw [stacked, List.length_zipWith, ← hc.length, Nat.min_self]
  · obtain ⟨i, hi, rfl⟩ := List.mem_iff_getElem.1 ha
    simp only [stacked, List.getElem_zipWith]
    exact Stack.dim_stack _ _ 3 1 H W (hc.cond _ (List.getElem_mem _)) (hc.msk _ (List.getElem_mem _))

omit [Stack F] in
/-- the first chunks of a condition -/
theorem Condition.take (hc : Condition cond msk H W) (n : ℕ) : Condition (cond.take (1 + n)) (msk.take (1 + n)) H W where
  nonempty := List.length_pos_iff.1 (by
    have hpos := List.length_pos_iff.2 hc.nonempty
    rw [List.length_take]
    omega)
  length := by rw [List.length_take, List.length_take, hc.length]
  cond a ha := hc.cond a (List.mem_of_mem_take ha)
  msk a ha := hc.msk a (List.mem_of_mem_take ha)

/-- feature i of a decoder on latents of h by w, for each i < n -/
def FeaturesFit (d : Decoder3d F) (h w : ℕ) (r : ℕ → List (List F)) (n : ℕ) : Prop :=
  ∀ i < n, Shaped (chunkLength 4 (decide (0 < i))) (r i) (d.dims h w)

/-- **Conditions.** Each chunk gives its features, whatever the caches held; they are left cleared. -/
theorem WanVAECondition.Built.encodeCond_ok (built : Built cfg weights self) (dec : cfg.forDecoder.DecoderFits)
    (nearest : (s c : ℕ) → FrameFn F c c 0 (s * ·)) {h w : ℕ} (hh : 1 ≤ h) (hw : 1 ≤ w)
    (hc : Condition cond msk (2 ^ (cfg.dimMult.length - 1) * h) (2 ^ (cfg.dimMult.length - 1) * w)) :
    ∃ r : ℕ → List (List F),
      (∀ i ≤ (cond.length - 1) / 4, self.condFeatures nearest (WanVAE.encodeChunk (stacked cond msk) i) = .ok (r i)) ∧
      (∀ s, (self.encodeCond nearest cond msk).run s =
        (.ok ((List.range ((cond.length - 1) / 4 + 1)).map r), self.vae.cleared)) ∧
      FeaturesFit self.vae.decoder h w r ((cond.length - 1) / 4 + 1) ∧
      (Untrained weights → ∀ i ≤ (cond.length - 1) / 4, ∀ y ∈ r i, BlankFeature y) := by
  obtain ⟨hcat, hlen, hdim⟩ := hc.catChannels_ok
  have hne : stacked cond msk ≠ [] := by
    rw [← List.length_pos_iff, hlen]
    exact List.length_pos_iff.2 hc.nonempty
  have hpaced := encodeChunk_paced hdim hne
  rw [hlen] at hpaced
  have hchunk : ∀ i ≤ (cond.length - 1) / 4,
      (WanVAE.encodeChunk (stacked cond msk) i).length = chunkLength 4 (decide (0 < i)) := by
    intro i hi
    rcases Nat.eq_zero_or_pos i with rfl | hpos
    · exact hpaced.first
    · rw [decide_eq_true hpos]
      exact hpaced.later i hpos hi
  have hall : ∀ i, ∃ ys, i ≤ (cond.length - 1) / 4 →
      self.condFeatures nearest (WanVAE.encodeChunk (stacked cond msk) i) = .ok ys ∧
        Shaped (chunkLength 4 (decide (0 < i))) ys (self.vae.decoder.dims h w) ∧
        (Untrained weights → ∀ y ∈ ys, BlankFeature y) := by
    intro i
    by_cases hi : i ≤ (cond.length - 1) / 4
    · have hne' : WanVAE.encodeChunk (stacked cond msk) i ≠ [] := by
        rw [← List.length_pos_iff, hchunk i hi]
        cases decide (0 < i) <;> simp [chunkLength]
      obtain ⟨ys, hys⟩ := built.condFeatures_ok dec nearest hne' hh hw (hpaced.items i hi)
      rw [hchunk i hi] at hys
      exact ⟨ys, fun _ => hys⟩
    · exact ⟨[], fun hi' => absurd hi' hi⟩
  choose r hr using hall
  refine ⟨r, fun i hi => (hr i hi).1, fun s => ?_, fun i hi => (hr i (Nat.lt_succ_iff.1 hi)).2.1,
    fun hu i hi => (hr i hi).2.2 hu⟩
  have hmapM : (List.range ((cond.length - 1) / 4 + 1)).mapM
      (fun i => self.condFeatures nearest (WanVAE.encodeChunk (stacked cond msk) i)) =
        .ok ((List.range ((cond.length - 1) / 4 + 1)).map r) :=
    mapM_ok fun i hi => (hr i (Nat.lt_succ_iff.1 (List.mem_range.1 hi))).1
  unfold WanVAECondition.encodeCond
  simp only [hcat]
  rw [WanVAE.clearCache, Py.run_bind_modify, Py.run_bind_ofExcept]
  simp only [hlen, iters_eq (List.length_pos_iff.2 hc.nonempty), hmapM, Py.run_bind_ofExcept]
  rfl

end Features

/-! ## Decoding -/

section Decoding

variable {cfg : NetConfig} {weights : ConditionWeights F} {self : WanVAECondition F} {x : List F} {h w : ℕ}

omit [Feature F] in
/-- the chunks of the first latents -/
theorem encodeChunk_take {y : List F} {k i : ℕ} (hi : i < k + 1) :
    WanVAE.encodeChunk (y.take (1 + 4 * k)) i = WanVAE.encodeChunk y i := by
  unfold WanVAE.encodeChunk
  split_ifs with h
  · rw [List.take_take, min_eq_left (by omega)]
  · rw [List.drop_take, List.take_take, min_eq_left (by omega)]

omit [Feature F] in
theorem decodeChunk_take {y : List F} {k i : ℕ} (hi : i < k) :
    WanVAE.decodeChunk (y.take k) i = WanVAE.decodeChunk y i := by
  rw [WanVAE.decodeChunk, WanVAE.decodeChunk, List.drop_take, List.take_take, min_eq_left (by omega)]

theorem eq_append_of_cat {y z r : List F} (h : cat y z = .ok r) : r = y ++ z := by
  unfold cat at h
  split_ifs at h
  exact (Except.ok.inj h).symm

/-- what `decode` makes of its loop -/
theorem WanVAECondition.Built.decode_eq (built : Built cfg weights self) (scale : Scale F cfg.zDim) (hne : x ≠ [])
    (hx : ∀ a ∈ x, dim a = ⟨cfg.zDim, h, w⟩) (feats : List (List (List F))) (s : Caches F) :
    (∀ out slots, (feedAt (self.decodeRound (self.vae.conv2.whole (x.map scale.undo.apply)) feats) cat x.length).run
        self.vae.fresh = (.ok (some out), slots) → (self.decode scale x feats).run s = (.ok out, self.vae.cleared)) ∧
    ∀ e, ((feedAt (self.decodeRound (self.vae.conv2.whole (x.map scale.undo.apply)) feats) cat x.length).run
        self.vae.fresh).1 = .error e → ((self.decode scale x feats).run s).1 = .error e := by
  obtain ⟨hsingle, hscaled, -, -⟩ := (WanVAE.built built.vae).latents scale hx
  have hstart : ∃ rest : Option (List F) → Py (Caches F) (List F),
      (self.decode scale x feats).run s =
        (Caches.decoding (feedAt (self.decodeRound (self.vae.conv2.whole (x.map scale.undo.apply)) feats) cat x.length) >>=
          rest).run self.vae.cleared ∧ ∀ out s', (rest (some out)).run s' = (.ok out, self.vae.cleared) := by
    refine ⟨?k, ?decoded, ?rest⟩
    case decoded =>
      unfold WanVAECondition.decode
      rw [WanVAE.clearCache, Py.run_bind_modify, scale.undo.forward_ok (Nat.zero_le h) (Nat.zero_le w) hx,
        Py.run_bind_ofExcept]
      simp only [List.length_map]
      rw [CausalConv3d.forward_single hsingle hscaled (by simpa using hne), ← CausalConv3d.whole_single hsingle]
      exact Py.run_bind_ofExcept _ _ _
    case rest => exact fun out s' => rfl
  obtain ⟨rest, hstart, hrest⟩ := hstart
  refine ⟨fun out slots hloop => ?_, fun e hloop => ?_⟩
  · have hdecoding : (Caches.decoding (feedAt (self.decodeRound (self.vae.conv2.whole (x.map scale.undo.apply)) feats) cat
        x.length)).run self.vae.cleared =
        (.ok (some out), { self.vae.cleared with featMap := slots.items, convIdx := slots.idx }) := by
      rw [Caches.decoding, Py.run_zoom]
      simp only [WanVAE.cleared]
      rw [show (⟨List.replicate self.vae.decoder.countConv3d none, 0⟩ : Slots (CacheItem F)) = self.vae.fresh from rfl, hloop]
    rw [hstart, Py.run_bind_ok hdecoding, hrest]
  · rw [hstart, Caches.decoding, Py.run_bind, Py.run_zoom]
    simp only [WanVAE.cleared]
    rw [show (⟨List.replicate self.vae.decoder.countConv3d none, 0⟩ : Slots (CacheItem F)) = self.vae.fresh from rfl, hloop]

/-- **The loop.** With features that fit, it runs over all latents; with blank ones, as it does without them. -/
theorem WanVAECondition.Built.loop_ok (built : Built cfg weights self) (dec : cfg.forDecoder.DecoderFits)
    (hne : x ≠ []) (hx : ∀ a ∈ x, dim a = ⟨cfg.zDim, h, w⟩) (hh : 1 ≤ h) (hw : 1 ≤ w) {r : ℕ → List (List F)} {n : ℕ}
    (hr : FeaturesFit self.vae.decoder h w r n) (hn : x.length ≤ n) :
    ∃ out slots, (feedAt (self.decodeRound x ((List.range n).map r)) cat x.length).run self.vae.fresh =
        (.ok (some out), slots) ∧
      (∀ a ∈ out, dim a = ⟨3, 2 ^ (cfg.dimMult.length - 1) * h, 2 ^ (cfg.dimMult.length - 1) * w⟩) ∧
      out.length = 1 + 2 ^ cfg.forDecoder.timeSteps 0 (cfg.dimMult.length - 1) * (x.length - 1) ∧
      ((∀ i < n, ∀ y ∈ r i, BlankFeature y) →
        (feed self.vae.decoder.cached cat (WanVAE.decodeChunk x) x.length).run self.vae.fresh = (.ok (some out), slots)) := by
  obtain ⟨k, hk, hserves⟩ := Decoder3d.serves dec (WanVAE.built built.vae).decoder hh hw
  have hpos : 0 < x.length := List.length_pos_iff.2 hne
  have hlast : x.length - 1 + 1 = x.length := Nat.sub_add_cancel hpos
  have hpaced := decodeChunk_paced (A := Sized ⟨cfg.zDim, h, w⟩) hx hne
  have hextra : ∀ i ≤ x.length - 1,
      List.Forall₂ (fun q e => q (decide (0 < i)) e) ((self.vae.decoder.dims h w).map CondFits) (r i) := by
    intro i hi
    rw [List.forall₂_map_left_iff]
    exact (hr i (by omega)).flip
  obtain ⟨out, slots, hrun, hdim, hlen, hblank⟩ := hserves.feedAt cat_sized hpaced hextra hk 0
  rw [hlast] at hrun hblank
  refine ⟨out, slots, ?_, hdim, hlen, fun h => hblank fun i hi y hy => h i (by omega) y hy⟩
  rw [← hrun]
  refine congrArg (fun f : Py (Slots (CacheItem F)) (Option (List F)) => f.run self.vae.fresh) (feedAt_congr ?_)
  intro i hi
  have hfeat : ((List.range n).map r)[i]? = some (r i) := by
    rw [List.getElem?_map, List.getElem?_range (by omega)]
    rfl
  rw [WanVAECondition.decodeRound, WanVAECondition.featAt, hfeat]
  rfl

/-- with a chunk of the condition for each latent, what is decoded does not depend on the caches -/
theorem WanVAECondition.Built.decode_ok [Stack F] (built : Built cfg weights self) (dec : cfg.forDecoder.DecoderFits)
    (nearest : (s c : ℕ) → FrameFn F c c 0 (s * ·)) (scale : Scale F cfg.zDim) (hh : 1 ≤ h) (hw : 1 ≤ w) {cond msk : List F}
    (hc : Condition cond msk (2 ^ (cfg.dimMult.length - 1) * h) (2 ^ (cfg.dimMult.length - 1) * w)) (hne : x ≠ [])
    (hx : ∀ a ∈ x, dim a = ⟨cfg.zDim, h, w⟩) (hle : x.length ≤ 1 + (cond.length - 1) / 4) :
    ∃ out, (∀ s, (self.encodeCond nearest cond msk >>= self.decode scale x).run s = (.ok out, self.vae.cleared)) ∧
      out.length = 1 + 2 ^ cfg.forDecoder.timeSteps 0 (cfg.dimMult.length - 1) * (x.length - 1) ∧
      ∀ a ∈ out, dim a = ⟨3, 2 ^ (cfg.dimMult.length - 1) * h, 2 ^ (cfg.dimMult.length - 1) * w⟩ := by
  obtain ⟨r, -, hencode, hfit, -⟩ := built.encodeCond_ok dec nearest hh hw hc
  obtain ⟨hsingle, hscaled, hconved, hlen⟩ := (WanVAE.built built.vae).latents scale hx
  have hne' : self.vae.conv2.whole (x.map scale.undo.apply) ≠ [] := by
    rw [← List.length_pos_iff, hlen]
    exact List.length_pos_iff.2 hne
  obtain ⟨out, slots, hloop, hdim, hout, -⟩ := built.loop_ok dec hne' hconved hh hw hfit (by omega)
  rw [hlen] at hloop hout
  refine ⟨out, fun s => ?_, hout, hdim⟩
  exact (Py.run_bind_ok (hencode s) _).trans
    ((built.decode_eq scale hne hx ((List.range ((cond.length - 1) / 4 + 1)).map r) self.vae.cleared).1 out slots hloop)

/-- a latent without a chunk of the condition -/
theorem WanVAECondition.Built.loop_error (built : Built cfg weights self) (dec : cfg.forDecoder.DecoderFits)
    (hx : ∀ a ∈ x, dim a = ⟨cfg.zDim, h, w⟩) (hh : 1 ≤ h) (hw : 1 ≤ w) {r : ℕ → List (List F)} {n : ℕ}
    (hr : FeaturesFit self.vae.decoder h w r n) (hpos : 0 < n) (hn : n < x.length) :
    ((feedAt (self.decodeRound x ((List.range n).map r)) cat x.length).run self.vae.fresh).1 =
      .error ⟨.indexError, "list index out of range"⟩ := by
  have htake : (x.take n).length = n := by rw [List.length_take, min_eq_left hn.le]
  obtain ⟨out, slots, hrun, -⟩ := built.loop_ok dec (x := x.take n) (List.length_pos_iff.1 (by rw [htake]; exact hpos))
    (fun a ha => hx a (List.mem_of_mem_take ha)) hh hw hr htake.le
  rw [htake] at hrun
  have hsame : feedAt (self.decodeRound (x.take n) ((List.range n).map r)) cat n =
      feedAt (self.decodeRound x ((List.range n).map r)) cat n := by
    refine feedAt_congr ?_
    intro i hi
    rw [WanVAECondition.decodeRound, WanVAECondition.decodeRound, decodeChunk_take hi]
  rw [hsame] at hrun
  refine feedAt_error hrun (fun s => ?_) hn
  have hfeat : ((List.range n).map r)[n]? = none := by simp
  rw [WanVAECondition.decodeRound, WanVAECondition.featAt, hfeat]
  rfl

end Decoding

/-! ## Frames of numbers -/

instance : Stack Pixels where
  stack a b :=
    ⟨⟨a.dim.channels + b.dim.channels, a.dim.height, a.dim.width⟩,
      fun c r q => if c < a.dim.channels then a.value c r q else b.value (c - a.dim.channels) r q⟩
  dim_stack a b c c' h w ha hb := by
    have ha' : a.dim = ⟨c, h, w⟩ := ha
    have hb' : b.dim = ⟨c', h, w⟩ := hb
    change (⟨a.dim.channels + b.dim.channels, a.dim.height, a.dim.width⟩ : Dim) = _
    rw [ha', hb']

/-- frames that change nothing are those of zeros -/
theorem blank_iff (a : Pixels) : Blank a ↔ ∀ c r q, a.value c r q = 0 := by
  constructor
  · intro h c r q
    have hadd := congrArg (fun x => Pixels.value x c r q) (h a rfl)
    exact add_eq_left.1 hadd
  · rintro h ⟨d, value⟩ -
    refine congrArg (Pixels.mk d) (funext fun c => funext fun r => funext ?_)
    intro q
    change value c r q + a.value c r q = value c r q
    rw [h, add_zero]

/-- what `zero_module` leaves of a convolution -/
def Kernel.zero (i o k : ℕ) : Kernel Pixels i o k where
  apply v := .fill ⟨o, (v.headD (.fill ⟨0, 0, 0⟩ 0)).dim.height, (v.headD (.fill ⟨0, 0, 0⟩ 0)).dim.width⟩ 0
  dim_apply v h w hne hlen hv := (Kernel.ones i o k).dim_apply v h w hne hlen hv

def ConditionWeights.ones : ConditionWeights Pixels := ⟨.ones, .ones, fun _ => .ones⟩

/-- the weights as the constructor leaves them -/
def ConditionWeights.zero : ConditionWeights Pixels := ⟨.ones, .ones, fun _ => .zero⟩

theorem untrained_zero : Untrained ConditionWeights.zero := fun _ _ _ _ => (blank_iff _).2 fun _ _ _ => rfl

/-- weights of 1 are not -/
theorem not_untrained_ones : ¬ Untrained ConditionWeights.ones := by
  intro h
  have hzero := (blank_iff _).1 (h 0 1 1 [.fill ⟨1, 1, 1⟩ 1]) 0 0 0
  simp [ConditionWeights.ones, Kernel.ones, Pixels.fill] at hzero

/-- `nn.Upsample(scale_factor=s, mode='nearest')` -/
def nearestPixels (s c : ℕ) : FrameFn Pixels c c 0 (s * ·) := .ofValue c c 0 (s * ·) fun x ch r q => x ch (r / s) (q / s)

/-- a condition of n + 1 frames of 16 by 24, and its mask -/
theorem condition_fill (n : ℕ) (q : ℚ) :
    Condition (List.replicate (n + 1) (Pixels.fill ⟨3, 16, 24⟩ q)) (List.replicate (n + 1) (.fill ⟨1, 16, 24⟩ 1))
      (2 ^ (videoVae.dimMult.length - 1) * 2) (2 ^ (videoVae.dimMult.length - 1) * 3) where
  nonempty := List.cons_ne_nil _ _
  length := by rw [List.length_replicate, List.length_replicate]
  cond _ ha := by
    rw [List.eq_of_mem_replicate ha]
    rfl
  msk _ ha := by
    rw [List.eq_of_mem_replicate ha]
    rfl

theorem latents_fill (n : ℕ) (q : ℚ) : ∀ a ∈ List.replicate n (Pixels.fill ⟨16, 2, 3⟩ q), dim a = ⟨videoVae.zDim, 2, 3⟩ := by
  intro a ha
  rw [List.eq_of_mem_replicate ha]
  rfl

/-! ## Results -/

section Results

variable [Stack F] {cfg : NetConfig} {weights : ConditionWeights F} {self : WanVAECondition F} {cond msk x : List F}
  {h w : ℕ}

/-- **Decoding with a condition.** For a configuration that fits, the constructor succeeds, and then whatever the caches held:
with a chunk of the condition for each latent, it gives one frame for the first latent and 2 ^ r for each further one, if r
stages double time; with fewer chunks it raises. -/
theorem code_cond (enc : cfg.EncoderFits) (dec : cfg.forDecoder.DecoderFits) (weights : ConditionWeights F) :
    ∃ self, WanVAECondition.init cfg weights = .ok self ∧
      ∀ (nearest : (s c : ℕ) → FrameFn F c c 0 (s * ·)) (scale : Scale F cfg.zDim) (h w : ℕ) (cond msk x : List F)
      (s : Caches F),
        1 ≤ h → 1 ≤ w →
        Condition cond msk (2 ^ (cfg.dimMult.length - 1) * h) (2 ^ (cfg.dimMult.length - 1) * w) → x ≠ [] →
        (∀ a ∈ x, dim a = ⟨cfg.zDim, h, w⟩) →
          (x.length ≤ 1 + (cond.length - 1) / 4 →
            ∃ out, (self.encodeCond nearest cond msk >>= self.decode scale x).run s = (.ok out, self.vae.cleared) ∧
              out.length = 1 + 2 ^ cfg.forDecoder.timeSteps 0 (cfg.dimMult.length - 1) * (x.length - 1) ∧
              ∀ a ∈ out, dim a = ⟨3, 2 ^ (cfg.dimMult.length - 1) * h, 2 ^ (cfg.dimMult.length - 1) * w⟩) ∧
          (1 + (cond.length - 1) / 4 < x.length →
            ((self.encodeCond nearest cond msk >>= self.decode scale x).run s).1 =
              .error ⟨.indexError, "list index out of range"⟩) := by
  obtain ⟨self, hself, built⟩ := WanVAECondition.init_built enc dec weights
  refine ⟨self, hself, fun nearest scale h w cond msk x s hh hw hc hne hx => ⟨fun hle => ?_, fun hlt => ?_⟩⟩
  · obtain ⟨out, hrun, hout⟩ := built.decode_ok dec nearest scale hh hw hc hne hx hle
    exact ⟨out, hrun s, hout⟩
  · obtain ⟨r, -, hencode, hfit, -⟩ := built.encodeCond_ok dec nearest hh hw hc
    obtain ⟨hsingle, hscaled, hconved, hlen⟩ := (WanVAE.built built.vae).latents scale hx
    have hloop := built.loop_error dec hconved hh hw hfit (Nat.succ_pos _) (by omega)
    rw [hlen] at hloop
    rw [Py.run_bind_ok (hencode s)]
    exact (built.decode_eq scale hne hx ((List.range ((cond.length - 1) / 4 + 1)).map r) self.vae.cleared).2 _ hloop

/-- two latents, with a condition for both and with a condition for the first one only -/
theorem code_cond_videoVae :
    ∃ model : WanVAECondition Pixels, WanVAECondition.init videoVae .ones = .ok model ∧
      (∃ out : List Pixels,
        (model.encodeCond nearestPixels (List.replicate 5 (.fill ⟨3, 16, 24⟩ 1)) (List.replicate 5 (.fill ⟨1, 16, 24⟩ 1)) >>=
          model.decode (.half 16) (List.replicate 2 (.fill ⟨16, 2, 3⟩ 1))).run model.vae.cleared =
            (.ok out, model.vae.cleared) ∧
        out.length = 5) ∧
      ((model.encodeCond nearestPixels (List.replicate 4 (.fill ⟨3, 16, 24⟩ 1)) (List.replicate 4 (.fill ⟨1, 16, 24⟩ 1)) >>=
        model.decode (.half 16) (List.replicate 2 (.fill ⟨16, 2, 3⟩ 1))).run model.vae.cleared).1 =
          .error ⟨.indexError, "list index out of range"⟩ := by
  obtain ⟨model, hmodel, hcode⟩ := code_cond videoVae_encoderFits videoVae_decoderFits ConditionWeights.ones
  have hall := fun n => hcode nearestPixels (.half 16) 2 3 _ _ (List.replicate 2 (.fill ⟨16, 2, 3⟩ 1)) model.vae.cleared
    (by decide) (by decide) (condition_fill n 1) (by simp) (latents_fill 2 1)
  obtain ⟨out, hrun, hlen, -⟩ := (hall 4).1 (by simp)
  exact ⟨model, hmodel, ⟨out, hrun, hlen.trans (by simp; decide)⟩, (hall 3).2 (by simp)⟩

/-- **Before training.** As long as `zero_convs` give blank frames, decoding with a condition is decoding without one. -/
theorem code_cond_untrained (enc : cfg.EncoderFits) (dec : cfg.forDecoder.DecoderFits)
    (hself : WanVAECondition.init cfg weights = .ok self) (hweights : Untrained weights)
    (nearest : (s c : ℕ) → FrameFn F c c 0 (s * ·)) (scale : Scale F cfg.zDim) (hh : 1 ≤ h) (hw : 1 ≤ w)
    (hc : Condition cond msk (2 ^ (cfg.dimMult.length - 1) * h) (2 ^ (cfg.dimMult.length - 1) * w)) (hne : x ≠ [])
    (hx : ∀ a ∈ x, dim a = ⟨cfg.zDim, h, w⟩) (hle : x.length ≤ 1 + (cond.length - 1) / 4) (s : Caches F) :
    (self.encodeCond nearest cond msk >>= self.decode scale x).run s = (self.vae.decode scale x).run s := by
  have built := WanVAECondition.built enc dec hself
  obtain ⟨r, -, hencode, hfit, hblank⟩ := built.encodeCond_ok dec nearest hh hw hc
  obtain ⟨hsingle, hscaled, hconved, hlen⟩ := (WanVAE.built built.vae).latents scale hx
  have hne' : self.vae.conv2.whole (x.map scale.undo.apply) ≠ [] := by
    rw [← List.length_pos_iff, hlen]
    exact List.length_pos_iff.2 hne
  obtain ⟨out, slots, hloop, -, -, hsame⟩ := built.loop_ok dec hne' hconved hh hw hfit (by omega)
  replace hsame := hsame fun i hi y hy => hblank hweights i (Nat.lt_succ_iff.1 hi) y hy
  rw [hlen] at hloop hsame
  have hwith := (built.decode_eq scale hne hx ((List.range ((cond.length - 1) / 4 + 1)).map r)
    self.vae.cleared).1 out slots hloop
  rw [Py.run_bind_ok (hencode s), hwith, (WanVAE.built built.vae).decode_loop scale hne hx hsame s]

/-- with any condition of one brightness -/
theorem code_cond_untrained_videoVae :
    ∃ model : WanVAECondition Pixels, WanVAECondition.init videoVae .zero = .ok model ∧ ∀ q : ℚ,
      (model.encodeCond nearestPixels (List.replicate 5 (.fill ⟨3, 16, 24⟩ q)) (List.replicate 5 (.fill ⟨1, 16, 24⟩ 1)) >>=
        model.decode (.half 16) (List.replicate 2 (.fill ⟨16, 2, 3⟩ 1))).run model.vae.cleared =
          (model.vae.decode (.half 16) (List.replicate 2 (.fill ⟨16, 2, 3⟩ 1))).run model.vae.cleared := by
  obtain ⟨model, hmodel, -⟩ := WanVAECondition.init_built videoVae_encoderFits videoVae_decoderFits ConditionWeights.zero
  exact ⟨model, hmodel, fun q => code_cond_untrained videoVae_encoderFits videoVae_decoderFits hmodel untrained_zero
    nearestPixels (.half 16) (x := List.replicate 2 (.fill ⟨16, 2, 3⟩ 1)) (by decide) (by decide) (condition_fill 4 q)
    (by simp) (latents_fill 2 1) (by simp) model.vae.cleared⟩

/-- **Causality.** What is decoded from the first k + 1 latents and their chunks of the condition is the beginning of what is
decoded from all of them. -/
theorem code_cond_prefix (enc : cfg.EncoderFits) (dec : cfg.forDecoder.DecoderFits)
    (hself : WanVAECondition.init cfg weights = .ok self) (nearest : (s c : ℕ) → FrameFn F c c 0 (s * ·))
    (scale : Scale F cfg.zDim) (hh : 1 ≤ h) (hw : 1 ≤ w)
    (hc : Condition cond msk (2 ^ (cfg.dimMult.length - 1) * h) (2 ^ (cfg.dimMult.length - 1) * w))
    (hx : ∀ a ∈ x, dim a = ⟨cfg.zDim, h, w⟩) (hle : x.length ≤ 1 + (cond.length - 1) / 4) {k : ℕ} (hk : k < x.length)
    (s s' : Caches F) :
    ∃ a b, ((self.encodeCond nearest (cond.take (1 + 4 * k)) (msk.take (1 + 4 * k)) >>=
        self.decode scale (x.take (k + 1))).run s).1 = .ok a ∧
      ((self.encodeCond nearest cond msk >>= self.decode scale x).run s').1 = .ok b ∧ a <+: b := by
  have built := WanVAECondition.built enc dec hself
  have hc' := hc.take (4 * k)
  have hpos := List.length_pos_iff.2 hc.nonempty
  have hlen' : (cond.take (1 + 4 * k)).length = 1 + 4 * k := by
    rw [List.length_take]
    omega
  obtain ⟨r, hr, hencode, hfit, -⟩ := built.encodeCond_ok dec nearest hh hw hc
  obtain ⟨r', hr', hencode', -⟩ := built.encodeCond_ok dec nearest hh hw hc'
  rw [hlen', Nat.add_sub_cancel_left, Nat.mul_div_cancel_left k four_pos] at hr' hencode'
  have hne : x ≠ [] := List.length_pos_iff.1 (by omega)
  obtain ⟨hsingle, hscaled, hconved, hlen⟩ := (WanVAE.built built.vae).latents scale hx
  have hne' : self.vae.conv2.whole (x.map scale.undo.apply) ≠ [] := List.length_pos_iff.1 (by rw [hlen]; omega)
  obtain ⟨out, slots, hloop, -⟩ := built.loop_ok dec hne' hconved hh hw hfit (by omega)
  rw [hlen] at hloop
  obtain ⟨out', slots', hloop', hprefix⟩ := feedAt_le (fun _ _ _ => eq_append_of_cat) hloop (Nat.succ_pos k) hk
  -- the first rounds are the same, latents and features
  have hsame : ∀ i < k + 1, r' i = r i := by
    intro i hi
    have hstacked : stacked (cond.take (1 + 4 * k)) (msk.take (1 + 4 * k)) = (stacked cond msk).take (1 + 4 * k) :=
      List.take_zipWith.symm
    have hfeat := hr' i (Nat.lt_succ_iff.1 hi)
    rw [hstacked, encodeChunk_take hi, hr i (by omega)] at hfeat
    exact (Except.ok.inj hfeat).symm
  have hwhole : self.vae.conv2.whole ((x.take (k + 1)).map scale.undo.apply) =
      (self.vae.conv2.whole (x.map scale.undo.apply)).take (k + 1) := by
    rw [CausalConv3d.whole_single hsingle, CausalConv3d.whole_single hsingle, ← List.map_take, ← List.map_take]
  have hrounds : feedAt (self.decodeRound (self.vae.conv2.whole ((x.take (k + 1)).map scale.undo.apply))
      ((List.range (k + 1)).map r')) cat (k + 1) =
        feedAt (self.decodeRound (self.vae.conv2.whole (x.map scale.undo.apply))
          ((List.range ((cond.length - 1) / 4 + 1)).map r)) cat (k + 1) := by
    refine feedAt_congr ?_
    intro i hi
    have hfeat : WanVAECondition.featAt ((List.range (k + 1)).map r') i =
        WanVAECondition.featAt ((List.range ((cond.length - 1) / 4 + 1)).map r) i := by
      rw [WanVAECondition.featAt, WanVAECondition.featAt, List.getElem?_map, List.getElem?_map, List.getElem?_range hi,
        List.getElem?_range (by omega), Option.map_some, Option.map_some, hsame i hi]
    rw [WanVAECondition.decodeRound, WanVAECondition.decodeRound, hwhole, decodeChunk_take hi, hfeat]
  have hlentake : (x.take (k + 1)).length = k + 1 := by
    rw [List.length_take]
    omega
  have hall := (built.decode_eq scale hne hx ((List.range ((cond.length - 1) / 4 + 1)).map r) self.vae.cleared).1 out slots hloop
  have hfirst := (built.decode_eq scale (x := x.take (k + 1)) (List.length_pos_iff.1 (by rw [hlentake]; exact Nat.succ_pos k))
    (fun a ha => hx a (List.mem_of_mem_take ha)) ((List.range (k + 1)).map r') self.vae.cleared).1 out' slots'
    (by rw [hlentake, hrounds]; exact hloop')
  refine ⟨out', out, ?_, ?_, hprefix⟩
  · rw [Py.run_bind_ok (hencode' s), hfirst]
  · rw [Py.run_bind_ok (hencode s'), hall]

theorem code_cond_prefix_videoVae :
    ∃ (model : WanVAECondition Pixels) (a b : List Pixels), WanVAECondition.init videoVae .ones = .ok model ∧
      ((model.encodeCond nearestPixels (List.replicate 1 (.fill ⟨3, 16, 24⟩ 1)) (List.replicate 1 (.fill ⟨1, 16, 24⟩ 1)) >>=
        model.decode (.half 16) (List.replicate 1 (.fill ⟨16, 2, 3⟩ 1))).run model.vae.cleared).1 = .ok a ∧
      ((model.encodeCond nearestPixels (List.replicate 5 (.fill ⟨3, 16, 24⟩ 1)) (List.replicate 5 (.fill ⟨1, 16, 24⟩ 1)) >>=
        model.decode (.half 16) (List.replicate 2 (.fill ⟨16, 2, 3⟩ 1))).run model.vae.cleared).1 = .ok b ∧ a <+: b := by
  obtain ⟨model, hmodel, -⟩ := WanVAECondition.init_built videoVae_encoderFits videoVae_decoderFits ConditionWeights.ones
  obtain ⟨a, b, ha, hb, hab⟩ := code_cond_prefix videoVae_encoderFits videoVae_decoderFits hmodel
    nearestPixels (.half 16) (x := List.replicate 2 (.fill ⟨16, 2, 3⟩ 1)) (by decide) (by decide) (condition_fill 4 1)
    (latents_fill 2 1) (by simp) (k := 0) (by simp) model.vae.cleared model.vae.cleared
  exact ⟨model, a, b, hmodel, ha, hb, hab⟩

end Results

end Viduce.Vae
