/-
`WanVAECondition_` (`models/vae2_1_cond_v2.py`) on batches: `encode_cond` and then `decode` on tensors of clips.

- `collect_each`, `ZeroConv.forward_each`, `ClipOf.addRepeated`: the condition encoder, `zero_convs` and the additions do to
  each clip of a batch what they do to that clip alone; the features of clip j are added to clip j.
- `WanVAECondition.encodeCond_each`, `WanVAECondition.decode_each`: so do the two calls.
- `decodeCondBatch_ok`: in a batch, each window of latents is decoded with its own condition.
-/
import Mathlib.Tactic
import Viduce.Models.BatchVae
import Viduce.Models.ConditionDecode

namespace Viduce.Vae

open Viduce.Streaming
open Feature

variable {F : Type} [Feature F] {n : ℕ}

/-! ## The networks on a batch -/

theorem dim_stack_batch [Stack F] (x y : Batch n F) (c c' h w : ℕ) (hx : dim x = ⟨c, h, w⟩) (hy : dim y = ⟨c', h, w⟩) :
    dim (fun j => Stack.stack (x j) (y j) : Batch n F) = ⟨c + c', h, w⟩ := Stack.dim_stack (x 0) (y 0) c c' h w hx hy

instance [Stack F] : Stack (Batch n F) := ⟨fun x y j => Stack.stack (x j) (y j), dim_stack_batch⟩

def ConditionEncoderSymmetric.each (n : ℕ) (e : ConditionEncoderSymmetric F) : ConditionEncoderSymmetric (Batch n F) where
  conv1 := e.conv1.each n
  downsamples := e.downsamples.map (Layer.each n)
  middle := e.middle.map (Layer.each n)

def ZeroConv.each (n : ℕ) (z : ZeroConv F) : ZeroConv (Batch n F) := ⟨z.upsample, z.conv.each n⟩

def WanVAECondition.each (n : ℕ) (self : WanVAECondition F) : WanVAECondition (Batch n F) where
  vae := self.vae.each n
  condEncoder := self.condEncoder.each n
  zeroConvs := self.zeroConvs.map (ZeroConv.each n)

/-! ## Features -/

/-- clip j of each of a list of tensors -/
abbrev FeatsOf (j : Fin (n + 1)) : List (List (Batch n F)) → List (List F) → Prop := List.Forall₂ (ClipOf j)

section Features

variable {j : Fin (n + 1)} {x x' : List (Batch n F)} {y y' : List F}

/-- channels on top of each other -/
theorem ClipOf.catChannels [Stack F] (h : ClipOf j x y) (h' : ClipOf j x' y') :
    Agree (ClipOf j) (Vae.catChannels x x') (Vae.catChannels y y') := by
  have hcheck : (∀ a ∈ x, ∀ b ∈ x', (dim a).height = (dim b).height ∧ (dim a).width = (dim b).width) ↔
      ∀ a ∈ y, ∀ b ∈ y', (dim a).height = (dim b).height ∧ (dim a).width = (dim b).width :=
    (h.forall_dim fun d => ∀ b ∈ x', d.height = (dim b).height ∧ d.width = (dim b).width).trans
      (forall₂_congr fun a _ => h'.forall_dim fun d => (dim a).height = d.height ∧ (dim a).width = d.width)
  refine Agree.guarded (and_congr (by rw [h.length, h'.length]) hcheck) fun hsame => .ok ⟨?_, ?_⟩
  · rw [List.map_zipWith, ← h.clip, ← h'.clip, List.zipWith_map]
    rfl
  · obtain ⟨d, hd⟩ := h.sized
    obtain ⟨d', hd'⟩ := h'.sized
    refine ⟨⟨d.channels + d'.channels, d.height, d.width⟩, ?_⟩
    intro c hc i
    obtain ⟨k, hk, rfl⟩ := List.mem_iff_getElem.1 hc
    rw [List.length_zipWith] at hk
    have hkx : k < x.length := by omega
    have hkx' : k < x'.length := by omega
    have hsize := hsame.2 _ (List.getElem_mem hkx) _ (List.getElem_mem hkx')
    rw [dim_batch, dim_batch, hd _ (List.getElem_mem hkx), hd' _ (List.getElem_mem hkx')] at hsize
    rw [List.getElem_zipWith]
    refine Stack.dim_stack _ _ d.channels d'.channels d.height d.width (hd _ (List.getElem_mem hkx) i) ?_
    rw [hd' _ (List.getElem_mem hkx') i, hsize.1, hsize.2]

/-- the layers of the condition encoder, with what each of them was given -/
theorem collect_each {ι : Type} {f : ι → List (Batch n F) → Except PyErr (List (Batch n F))}
    {g : ι → List F → Except PyErr (List F)} {ls : List ι}
    (hls : ∀ i ∈ ls, ∀ x y, ClipOf j x y → Agree (ClipOf j) (f i x) (g i y)) (h : ClipOf j x y) :
    Agree (fun p q => FeatsOf j p.1 q.1 ∧ ClipOf j p.2 q.2) (collect (ls.map f) x) (collect (ls.map g) y) := by
  induction ls generalizing x y with
  | nil => exact .ok ⟨.nil, h⟩
  | cons i ls ih =>
    refine (hls i List.mem_cons_self x y h).bind ?_
    intro x₁ y₁ h₁
    refine (ih (fun k hk => hls k (List.mem_cons_of_mem i hk)) h₁).bind ?_
    intro p q hpq
    exact .ok ⟨.cons h hpq.1, hpq.2⟩

theorem ConditionEncoderSymmetric.features_each (e : ConditionEncoderSymmetric F) (h : ClipOf j x y) :
    Agree (FeatsOf j) ((e.each n).features x) (e.features y) := by
  have hlayers : ∀ (layers : List (Layer F)) (x : List (Batch n F)) (y : List F), ClipOf j x y →
      Agree (fun p q => FeatsOf j p.1 q.1 ∧ ClipOf j p.2 q.2) (collect ((layers.map (Layer.each n)).map Layer.plain) x)
        (collect (layers.map Layer.plain) y) := by
    intro layers x y h
    rw [List.map_map]
    exact collect_each (fun l _ _ _ hxy => l.plain_each hxy) h
  refine (h.forward e.conv1 .none).bind ?_
  intro x₁ y₁ h₁
  refine (hlayers e.downsamples x₁ y₁ h₁).bind ?_
  intro p q hpq
  refine (hlayers e.middle p.2 q.2 hpq.2).bind fun p' q' hpq' => .ok ?_
  exact List.rel_reverse (List.rel_append hpq.1 (.cons hpq.2 hpq'.1))

/-- each frame s times -/
theorem ClipOf.repeatFrames (h : ClipOf j x y) (s : ℕ) :
    ClipOf j (x.flatMap fun a => List.replicate s a) (y.flatMap fun b => List.replicate s b) := by
  refine h.of_subset (fun a ha => ?_) ?_
  · obtain ⟨b, hb, hab⟩ := List.mem_flatMap.1 ha
    rwa [List.eq_of_mem_replicate hab]
  · rw [← h.clip, List.map_flatMap, List.flatMap_map]
    simp only [List.map_replicate]

theorem ZeroConv.forward_each (nearest : (s c : ℕ) → FrameFn F c c 0 (s * ·)) (z : ZeroConv F) (h : ClipOf j x y) :
    Agree (ClipOf j) ((z.each n).forward (fun s c => (nearest s c).each n) x) (z.forward nearest y) := by
  obtain ⟨upsample, conv⟩ := z
  cases upsample with
  | none => exact h.forward conv .none
  | some s =>
    exact (h.frameFn (nearest s conv.inChannels)).bind fun u v huv => (huv.repeatFrames s).forward conv .none

theorem applyZeroConvs_each (nearest : (s c : ℕ) → FrameFn F c c 0 (s * ·)) (convs : List (ZeroConv F))
    {xs : List (List (Batch n F))} {ys : List (List F)} (h : FeatsOf j xs ys) :
    Agree (FeatsOf j) (applyZeroConvs (fun s c => (nearest s c).each n) (convs.map (ZeroConv.each n)) xs)
      (applyZeroConvs nearest convs ys) := by
  induction convs generalizing xs ys with
  | nil => cases h <;> exact .ok .nil
  | cons z convs ih =>
    cases h with
    | nil => exact .ok .nil
    | cons h hs =>
      refine (z.forward_each nearest h).bind ?_
      intro u v huv
      exact (ih hs).bind fun us vs hus => .ok (.cons huv hus)

variable {self : WanVAECondition F}

theorem WanVAECondition.condFeatures_each (self : WanVAECondition F) (nearest : (s c : ℕ) → FrameFn F c c 0 (s * ·))
    (h : ClipOf j x y) :
    Agree (FeatsOf j) ((self.each n).condFeatures (fun s c => (nearest s c).each n) x) (self.condFeatures nearest y) := by
  refine (self.condEncoder.features_each h).bind ?_
  intro xs ys hs
  have hconvs : (self.each n).zeroConvs.length = self.zeroConvs.length := List.length_map _
  rw [hconvs, hs.length_eq]
  exact Agree.ite Iff.rfl (fun _ => .error _) fun _ => applyZeroConvs_each nearest self.zeroConvs hs

/-- **Conditions of a batch.** -/
theorem WanVAECondition.encodeCond_each [Stack F] (nearest : (s c : ℕ) → FrameFn F c c 0 (s * ·)) (h : ClipOf j x y)
    (h' : ClipOf j x' y') :
    InStep (CachesOf j) (List.Forall₂ (FeatsOf j)) ((self.each n).encodeCond (fun s c => (nearest s c).each n) x x')
      (self.encodeCond nearest y y') := by
  refine (self.vae.clearCache_each j).bind ?_
  intro _ _ _
  refine (InStep.ofExcept (h.catChannels h')).bind ?_
  intro u v huv
  simp only [huv.length]
  refine (InStep.ofExcept (Agree.mapM fun i _ => self.condFeatures_each nearest (huv.encodeChunk i))).bind
    fun feats feats' hfeats => ?_
  exact (self.vae.clearCache_each j).bind fun _ _ _ => .pure hfeats

end Features

/-! ## The decoder with features -/

section Decoder

variable {j : Fin (n + 1)} {x feat : List (Batch n F)} {y feat' : List F}

theorem ClipOf.addTrimmed (h : ClipOf j x y) (h' : ClipOf j feat feat') :
    Agree (ClipOf j) (Vae.addTrimmed x feat) (Vae.addTrimmed y feat') := by
  unfold Vae.addTrimmed
  rw [h.length, h'.length]
  split_ifs
  · exact h.addFrames (h'.take _)
  · exact h.addFrames h'

theorem ClipOf.timeRepeat (h : ClipOf j feat feat') (k : ℕ) :
    ClipOf j (Vae.timeRepeat feat k) (Vae.timeRepeat feat' k) := by
  refine h.of_subset (fun a ha => mem_timeRepeat ha) ?_
  unfold Vae.timeRepeat
  split_ifs
  · exact h.clip
  · rw [List.map_flatten, List.map_replicate, h.clip]

/-- the feature of clip j is added to clip j -/
theorem ClipOf.addRepeated (h : ClipOf j x y) (h' : ClipOf j feat feat') :
    Agree (ClipOf j) (Vae.addRepeated x feat) (Vae.addRepeated y feat') := by
  unfold Vae.addRepeated
  rw [h.length, h'.length]
  refine Agree.ite Iff.rfl (fun _ => ?_) fun _ => h.addTrimmed h'
  exact Agree.ite Iff.rfl (fun _ => .error _) fun _ => h.addTrimmed (h'.timeRepeat _)

theorem Decoder3d.cachedWith_each {d : Decoder3d F} (hd : d.Proper) (h : ClipOf j x y) {extra : List (List (Batch n F))}
    {extra' : List (List F)} (hextra : FeatsOf j extra extra') :
    InStep (SlotsOf j) (fun p q => ClipOf j p.1 q.1 ∧ FeatsOf j p.2 q.2) ((d.each n).cachedWith x extra)
      (d.cachedWith y extra') := by
  unfold Decoder3d.cachedWith
  simp only [Decoder3d.each, List.map_map]
  refine (conv1_each d.conv1 h).bind ?_
  intro x₁ y₁ h₁
  refine (InStep.ofExcept (InStep.popJoin (fun _ _ _ _ h he => h.addTrimmed he) h₁ hextra)).bind ?_
  intro p q hpq
  have hmiddle : InStep (SlotsOf j) (fun p q => ClipOf j p.1 q.1 ∧ FeatsOf j p.2 q.2)
      (chainJoin Vae.addTrimmed (d.middle.map (Layer.middle ∘ Layer.each n)) p.1 p.2)
      (chainJoin Vae.addTrimmed (d.middle.map Layer.middle) q.1 q.2) :=
    InStep.chainJoin (fun l _ _ _ hxy => l.middle_each hxy) (fun _ _ _ _ h he => h.addTrimmed he) hpq.1 hpq.2
  refine hmiddle.bind ?_
  intro p q hpq
  have hups : InStep (SlotsOf j) (fun p q => ClipOf j p.1 q.1 ∧ FeatsOf j p.2 q.2)
      (chainJoin Vae.addRepeated (d.upsamples.map (Layer.cached ∘ Layer.each n)) p.1 p.2)
      (chainJoin Vae.addRepeated (d.upsamples.map Layer.cached) q.1 q.2) :=
    InStep.chainJoin (fun l hl _ _ hxy => l.cached_each (hd l hl) hxy) (fun _ _ _ _ h he => h.addRepeated he) hpq.1 hpq.2
  refine hups.bind ?_
  intro p q hpq
  have hhead := Sublayer.head_each d.head hpq.1
  rw [List.map_map] at hhead
  exact hhead.bind fun x₂ y₂ h₂ => .pure ⟨h₂, hpq.2⟩

theorem featAt_each {feats : List (List (List (Batch n F)))} {feats' : List (List (List F))}
    (h : List.Forall₂ (FeatsOf j) feats feats') (i : ℕ) :
    Agree (FeatsOf j) (WanVAECondition.featAt feats i) (WanVAECondition.featAt feats' i) := by
  induction h generalizing i with
  | nil => exact .error _
  | cons h hs ih =>
    cases i with
    | zero => exact .ok h
    | succ i => exact ih i

/-- **Decoding a batch with its conditions.** -/
theorem WanVAECondition.decode_each {self : WanVAECondition F} (hvae : self.vae.Proper) {z : ℕ} (scale : Scale F z)
    (h : ClipOf j x y) {feats : List (List (List (Batch n F)))} {feats' : List (List (List F))}
    (hfeats : List.Forall₂ (FeatsOf j) feats feats') :
    InStep (CachesOf j) (ClipOf j) ((self.each n).decode (scale.each n) x feats) (self.decode scale y feats') := by
  refine (self.vae.clearCache_each j).bind ?_
  intro _ _ _
  refine (InStep.ofExcept (h.frameFn scale.undo)).bind ?_
  intro u v huv
  simp only [huv.length]
  refine (InStep.ofExcept (huv.forward self.vae.conv2 .none)).bind ?_
  intro u' v' huv'
  have hround : ∀ i, InStep (SlotsOf j) (ClipOf j) ((self.each n).decodeRound u' feats i) (self.decodeRound v' feats' i) := by
    intro i
    refine (InStep.ofExcept (featAt_each hfeats i)).bind ?_
    intro e e' he
    exact (Decoder3d.cachedWith_each hvae.decoder (huv'.decodeChunk i) he).bind fun p q hpq => .pure hpq.1
  refine (Caches.decoding_each (InStep.feedAt (fun i _ => hround i) fun _ _ _ _ h h' => h.cat h')).bind fun o o' ho => ?_
  cases ho with
  | none => exact .raise _
  | some hout => exact (self.vae.clearCache_each j).bind fun _ _ _ => .pure hout

end Decoder

/-! ## Batches of windows -/

section Batches

variable [Stack F] {self : WanVAECondition F} {zDim : ℕ} (nearest : (s c : ℕ) → FrameFn F c c 0 (s * ·)) (scale : Scale F zDim)

/-- `encode_cond` and then `decode` of one clip -/
def decodeCond (self : WanVAECondition F) (z cond msk : List F) : Py (Caches F) (List F) :=
  self.encodeCond nearest cond msk >>= self.decode scale z

/-- the two calls on tensors: the latents, the condition and its mask of each clip, at one place in each of them. Tensors of
different sizes raise here; torch would stretch a batch of one clip. -/
def decodeCondBatch (self : WanVAECondition F) (z cond msk : List (List F)) : Py (AnyCaches F) (List (List F)) := do
  let n := z.length - 1
  let z ← Py.ofExcept (toTensor n z)
  let cond ← Py.ofExcept (toTensor n cond)
  let msk ← Py.ofExcept (toTensor n msk)
  let out ← AnyCaches.call n (decodeCond (fun s c => (nearest s c).each n) (scale.each n) (self.each n) z cond msk)
  pure (clips out)

variable {nearest scale}

theorem decodeCond_any (self : WanVAECondition F) (z cond msk : List F) (s t : Caches F) :
    (decodeCond nearest scale self z cond msk).run s = (decodeCond nearest scale self z cond msk).run t := rfl

/-- **A batch with its conditions.** Each clip becomes what it becomes alone, with its own condition and mask. -/
theorem decodeCond_each (hvae : self.vae.Proper) {j : Fin (n + 1)} {z cond msk : List (Batch n F)} {z' cond' msk' : List F}
    (hz : ClipOf j z z') (hcond : ClipOf j cond cond') (hmsk : ClipOf j msk msk') (s : Caches (Batch n F)) (t : Caches F) :
    Agree (ClipOf j)
      ((decodeCond (fun s c => (nearest s c).each n) (scale.each n) (self.each n) z cond msk).run s).1
      ((decodeCond nearest scale self z' cond' msk').run t).1 := by
  rw [decodeCond_any (self.each n) z cond msk s (self.vae.each n).cleared, decodeCond_any self z' cond' msk' t self.vae.cleared]
  have hboth : InStep (CachesOf j) (ClipOf j)
      (decodeCond (fun s c => (nearest s c).each n) (scale.each n) (self.each n) z cond msk)
      (decodeCond nearest scale self z' cond' msk') :=
    (self.encodeCond_each nearest hcond hmsk).bind fun _ _ hfeats => WanVAECondition.decode_each hvae scale hz hfeats
  exact (hboth _ _ (self.vae.cleared_each j)).1

/-- clips of one shape each, with a condition and a mask each -/
theorem decodeCondBatch_ok {ι : Type} (hvae : self.vae.Proper) {ps : List ι} (hne : ps ≠ []) {z cond msk r : ι → List F}
    {t t' : ℕ} {dz dc dm : Dim} (hz : ∀ p ∈ ps, (z p).length = t ∧ ∀ a ∈ z p, dim a = dz)
    (hcond : ∀ p ∈ ps, (cond p).length = t' ∧ ∀ a ∈ cond p, dim a = dc)
    (hmsk : ∀ p ∈ ps, (msk p).length = t' ∧ ∀ a ∈ msk p, dim a = dm)
    (hr : ∀ p ∈ ps, ∀ s, ((decodeCond nearest scale self (z p) (cond p) (msk p)).run s).1 = .ok (r p)) (s : AnyCaches F) :
    ∃ s', (decodeCondBatch nearest scale self (ps.map z) (ps.map cond) (ps.map msk)).run s = (.ok (ps.map r), s') := by
  have hn : ps.length = (ps.map z).length - 1 + 1 := by
    rw [List.length_map, Nat.sub_add_cancel (List.length_pos_iff.2 hne)]
  have htensor : ∀ {f : ι → List F} {t : ℕ} {d : Dim}, (∀ p ∈ ps, (f p).length = t ∧ ∀ a ∈ f p, dim a = d) →
      ∃ x, toTensor ((ps.map z).length - 1) (ps.map f) = .ok x ∧
        ∀ j : Fin ((ps.map z).length - 1 + 1), ClipOf j x ((ps.map f).getD j []) :=
    fun hf => toTensor_ok ((List.length_map _).trans hn) (List.forall_mem_map.2 fun p hp => (hf p hp).1)
      (List.forall_mem_map.2 fun p hp => (hf p hp).2)
  obtain ⟨xz, hxz, hclipz⟩ := htensor hz
  obtain ⟨xc, hxc, hclipc⟩ := htensor hcond
  obtain ⟨xm, hxm, hclipm⟩ := htensor hmsk
  rw [decodeCondBatch, hxz, Py.run_bind_ofExcept]
  simp only [hxc, hxm, Py.run_bind_ofExcept]
  refine AnyCaches.call_clips ((List.length_map _).trans hn) (fun j s => ?_) s
  have hj : (j : ℕ) < ps.length := lt_of_lt_of_eq j.isLt hn.symm
  have hget : ∀ f : ι → List F, (ps.map f).getD j [] = f (ps.get ⟨j, hj⟩) := by
    intro f
    simp [List.getD_eq_getElem?_getD, hj]
  have hclipz := hclipz j
  have hclipc := hclipc j
  have hclipm := hclipm j
  rw [hget] at hclipz hclipc hclipm ⊢
  rw [← hr _ (List.get_mem _ _) self.vae.cleared]
  exact decodeCond_each hvae hclipz hclipc hclipm s self.vae.cleared

end Batches

end Viduce.Vae
