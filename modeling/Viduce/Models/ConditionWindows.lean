/-
Windows of latents with a condition (`Wan2_1SpatialTiledConditionEncoder3Dv2._decode`, `models/precond.py`): the latents are cut
into windows of 2, the clip of the condition and its mask into windows of 5, and each batch of windows of latents is decoded
with the batch of windows of the other two in its place. The caches go from one batch to the next.

- `split_map`: lists of windows that come from one list are cut into batches at the same places.
- `tile_decode_cond`: whatever the batch size and the caches, each window of each clip is decoded as it is alone.
-/
import Mathlib.Tactic
import Viduce.Models.ConditionBatch
import Viduce.Models.Windows

namespace Viduce.Vae

open Feature

variable {F G : Type}

theorem split_cons (batchSize n : ℕ) (a : F) (x : List F) :
    split batchSize (n + 1) (a :: x) = (a :: x).take batchSize :: split batchSize n ((a :: x).drop batchSize) := by
  rw [split]
  exact List.cons_ne_nil a x

theorem split_map (f : F → G) (batchSize n : ℕ) (x : List F) :
    split batchSize n (x.map f) = (split batchSize n x).map (List.map f) := by
  induction n generalizing x with
  | zero => cases x <;> rfl
  | succ n ih =>
    cases x with
    | nil => rfl
    | cons a x => rw [List.map_cons, split_cons, split_cons, List.map_cons, ← ih, ← List.map_cons, List.map_take, List.map_drop]

/-- the windows of all clips, by window and clip -/
theorem windows_grid (t k : ℕ) (x : List (List F)) :
    ((List.range k).flatMap fun i => x.map fun clip => window t clip i) =
      (List.range k ×ˢ List.range x.length).map fun p => window t (x.getD p.2 []) p.1 := by
  change _ = ((List.range k).flatMap fun i => (List.range x.length).map (Prod.mk i)).map fun p => window t (x.getD p.2 []) p.1
  rw [List.map_flatMap]
  refine congrArg List.flatten (List.map_congr_left ?_)
  intro i _
  rw [List.map_map, ← map_getD_range]
  rfl

/-- blocks of one size, by number in a block -/
theorem toClips_grid {b k : ℕ} (hb : 0 < b) (f : ℕ → ℕ → List G) :
    toClips b ((List.range k).flatMap fun i => (List.range b).map (f i)) =
      .ok ((List.range b).map fun j => (List.range k).flatMap fun i => f i j) := by
  rw [toClips_ok hb fun i _ => by rw [List.length_map, List.length_range]]
  refine congrArg Except.ok (List.map_congr_left ?_)
  intro j hj
  refine congrArg List.flatten (List.map_congr_left ?_)
  intro i _
  rw [List.getD_eq_getElem?_getD, List.getElem?_map, List.getElem?_range (List.mem_range.1 hj)]
  rfl

section Decode

variable [Feature F] [Stack F] {zDim : ℕ}

/-- `_decode`; `clamp` is `.clamp(-1, 1)` on a frame -/
def tileDecodeCond (self : WanVAECondition F) (nearest : (s c : ℕ) → FrameFn F c c 0 (s * ·)) (scale : Scale F zDim)
    (clamp : F → F) (batchSize : ℕ) (x cond msk : List (List F)) : Py (AnyCaches F) (List (List F)) := do
  let bsz := x.length
  let x ← Py.ofExcept (toWindows 2 x)
  let cond ← Py.ofExcept (toWindows 5 cond)
  let msk ← Py.ofExcept (toWindows 5 msk)
  let batches := (split batchSize x.length x).zip
    ((split batchSize cond.length cond).zip (split batchSize msk.length msk))
  let out ← Py.each (fun b => decodeCondBatch nearest scale self b.1 b.2.1 b.2.2) batches
  let out ← Py.ofExcept (toClips bsz out.flatten)
  pure (out.map (List.map clamp))

/-- as many clips, each of k windows of t frames in this shape -/
structure Windowed (n k t : ℕ) (d : Dim) (x : List (List F)) : Prop where
  clips : x.length = n
  length : ∀ clip ∈ x, clip.length = k * t
  dim : ∀ clip ∈ x, ∀ a ∈ clip, dim a = d

omit [Stack F] in
theorem Windowed.getD {n k t : ℕ} {d : Dim} {x : List (List F)} (hx : Windowed n k t d x) {i j : ℕ} (hi : i < k) (hj : j < n) :
    (window t (x.getD j []) i).length = t ∧ ∀ a ∈ window t (x.getD j []) i, Feature.dim a = d := by
  have hmem : x.getD j [] ∈ x := by
    have hlt : j < x.length := hx.clips ▸ hj
    rw [List.getD_eq_getElem?_getD, List.getElem?_eq_getElem hlt]
    exact List.getElem_mem hlt
  exact ⟨window_length (hx.length _ hmem) hi, fun a ha => hx.dim _ hmem a (mem_window ha)⟩

omit [Stack F] in
/-- the windows of such clips, by window and clip -/
theorem Windowed.toWindows_ok {n k t : ℕ} {d : Dim} {x : List (List F)} (hx : Windowed n k t d x) (ht : 0 < t) (hn : 0 < n) :
    toWindows t x = .ok ((List.range k ×ˢ List.range n).map fun p => window t (x.getD p.2 []) p.1) := by
  have hne : x ≠ [] := List.length_pos_iff.1 (hx.clips ▸ hn)
  rw [Vae.toWindows_ok ht hx.length hne, allWindows, windows_grid, hx.clips]

theorem windowed_fill (n k t : ℕ) (d : Dim) (q : ℚ) :
    Windowed n k t d (List.replicate n (List.replicate (k * t) (Pixels.fill d q))) where
  clips := List.length_replicate
  length clip hclip := by rw [List.eq_of_mem_replicate hclip, List.length_replicate]
  dim clip hclip a ha := by
    rw [List.eq_of_mem_replicate hclip] at ha
    rw [List.eq_of_mem_replicate ha]
    rfl

omit [Stack F] in
/-- the windows of such clips, batch by batch -/
theorem Windowed.batches {n k t b : ℕ} {d : Dim} {x : List (List F)} (hx : Windowed n k t d x) {ps : List (ℕ × ℕ)} (hb : 0 < b)
    (hps : ps ∈ split b (List.range k ×ˢ List.range n).length (List.range k ×ˢ List.range n)) :
    ∀ p ∈ ps, (p.1 < k ∧ p.2 < n) ∧ (window t (x.getD p.2 []) p.1).length = t ∧
      ∀ a ∈ window t (x.getD p.2 []) p.1, Feature.dim a = d := by
  intro p hp
  have hmem : p ∈ List.range k ×ˢ List.range n := by
    rw [← flatten_split hb (List.range k ×ˢ List.range n).length (List.range k ×ˢ List.range n) le_rfl]
    exact List.mem_flatten.2 ⟨ps, hps, hp⟩
  obtain ⟨hi, hj⟩ := List.mem_product.1 hmem
  exact ⟨⟨List.mem_range.1 hi, List.mem_range.1 hj⟩, hx.getD (List.mem_range.1 hi) (List.mem_range.1 hj)⟩

/-- **Tiles of video with a condition.** A batch of n clips of 2 k latents, with a condition and a mask of 5 k frames each:
whatever the batch size and the caches, each window of 2 latents is decoded to 5 frames with the 5 frames of its own
condition, as it is alone, and the windows of a clip are put together in order. -/
theorem tile_decode_cond {cfg : NetConfig} (enc : cfg.EncoderFits) (dec : cfg.forDecoder.DecoderFits)
    {weights : ConditionWeights F} {self : WanVAECondition F} (hself : WanVAECondition.init cfg weights = .ok self)
    (htime : cfg.forDecoder.timeSteps 0 (cfg.dimMult.length - 1) = 2)
    (nearest : (s c : ℕ) → FrameFn F c c 0 (s * ·)) (scale : Scale F cfg.zDim) (clamp : F → F) {n k h w : ℕ} (hn : 0 < n)
    (hh : 1 ≤ h) (hw : 1 ≤ w) {x cond msk : List (List F)} (hx : Windowed n k 2 ⟨cfg.zDim, h, w⟩ x)
    (hcond : Windowed n k 5 ⟨3, 2 ^ (cfg.dimMult.length - 1) * h, 2 ^ (cfg.dimMult.length - 1) * w⟩ cond)
    (hmsk : Windowed n k 5 ⟨1, 2 ^ (cfg.dimMult.length - 1) * h, 2 ^ (cfg.dimMult.length - 1) * w⟩ msk) :
    ∃ out : ℕ → ℕ → List F,
      (∀ i < k, ∀ j < n, ∀ s, ((self.encodeCond nearest (window 5 (cond.getD j []) i) (window 5 (msk.getD j []) i) >>=
          self.decode scale (window 2 (x.getD j []) i)).run s).1 = .ok (out i j) ∧ (out i j).length = 5) ∧
      ∀ b > 0, ∀ s : AnyCaches F, ((tileDecodeCond self nearest scale clamp b x cond msk).run s).1 =
        .ok ((List.range n).map fun j => (List.range k).flatMap fun i => (out i j).map clamp) := by
  have built := WanVAECondition.built enc dec hself
  have hproper := (WanVAE.built built.vae).proper enc dec
  have halone : ∀ i j, ∃ out, i < k → j < n →
      ∀ s, ((self.encodeCond nearest (window 5 (cond.getD j []) i) (window 5 (msk.getD j []) i) >>=
        self.decode scale (window 2 (x.getD j []) i)).run s).1 = .ok out ∧ out.length = 5 := by
    intro i j
    by_cases hij : i < k ∧ j < n
    · obtain ⟨hxlen, hxdim⟩ := hx.getD hij.1 hij.2
      obtain ⟨hclen, hcdim⟩ := hcond.getD hij.1 hij.2
      obtain ⟨hmlen, hmdim⟩ := hmsk.getD hij.1 hij.2
      have hne : window 2 (x.getD j []) i ≠ [] := List.length_pos_iff.1 (by omega)
      have hcne : window 5 (cond.getD j []) i ≠ [] := List.length_pos_iff.1 (by omega)
      obtain ⟨out, hrun, hlen, -⟩ := built.decode_ok dec nearest scale hh hw ⟨hcne, hclen.trans hmlen.symm, hcdim, hmdim⟩
        hne hxdim (by omega)
      rw [htime, hxlen] at hlen
      exact ⟨out, fun _ _ s => ⟨congrArg Prod.fst (hrun s), hlen⟩⟩
    · exact ⟨[], fun hi hj => absurd ⟨hi, hj⟩ hij⟩
  choose out hout using halone
  refine ⟨out, fun i hi j hj s => hout i j hi hj s, ?_⟩
  intro b hb s
  set places := List.range k ×ˢ List.range n with hplaces
  -- one batch, at its places
  have hbatch : ∀ ps ∈ split b places.length places, ∀ s, ∃ s', (decodeCondBatch nearest scale self
      (ps.map fun p => window 2 (x.getD p.2 []) p.1) (ps.map fun p => window 5 (cond.getD p.2 []) p.1)
      (ps.map fun p => window 5 (msk.getD p.2 []) p.1)).run s = (.ok (ps.map fun p => out p.1 p.2), s') := by
    refine fun ps hps s => decodeCondBatch_ok hproper (split_ne_nil hb _ _ ps hps) (fun p hp => (hx.batches hb hps p hp).2)
      (fun p hp => (hcond.batches hb hps p hp).2) (fun p hp => (hmsk.batches hb hps p hp).2) (fun p hp s => ?_) s
    obtain ⟨hi, hj⟩ := (hx.batches hb hps p hp).1
    exact (hout p.1 p.2 hi hj s).1
  have hclips : (places.map fun p => out p.1 p.2) = (List.range k).flatMap fun i => (List.range n).map (out i) := by
    calc places.map (fun p => out p.1 p.2)
        = ((List.range k).flatMap fun i => (List.range n).map (Prod.mk i)).map fun p => out p.1 p.2 := rfl
      _ = (List.range k).flatMap fun i => (List.range n).map (out i) := by
          simp only [List.map_flatMap, List.map_map, Function.comp_def]
  obtain ⟨s', hrun⟩ := Py.each_ok hbatch s
  rw [tileDecodeCond, hx.toWindows_ok two_pos hn, Py.run_bind_ofExcept]
  simp only [hcond.toWindows_ok (by decide : 0 < 5) hn, hmsk.toWindows_ok (by decide : 0 < 5) hn, Py.run_bind_ofExcept,
    List.length_map, split_map, List.zip_map', Py.each_map, ← hplaces]
  rw [Py.run_bind_ok hrun, ← List.map_flatten, flatten_split hb places.length places le_rfl, hclips, hx.clips,
    toClips_grid hn, Py.run_bind_ofExcept]
  simp only [Py.run_pure, List.map_map, Function.comp_def, List.map_flatMap]

/-- two clips of 8 latents, in batches of three windows -/
theorem tile_decode_cond_videoVae :
    ∃ (model : WanVAECondition Pixels) (clips : List (List Pixels)), WanVAECondition.init videoVae .ones = .ok model ∧
      ((tileDecodeCond model nearestPixels (.half 16) id 3 (List.replicate 2 (List.replicate 8 (.fill ⟨16, 2, 3⟩ 1)))
        (List.replicate 2 (List.replicate 20 (.fill ⟨3, 16, 24⟩ 1)))
        (List.replicate 2 (List.replicate 20 (.fill ⟨1, 16, 24⟩ 1)))).run ⟨0, (model.vae.each 0).cleared⟩).1 = .ok clips ∧
      ∀ clip ∈ clips, clip.length = 20 := by
  obtain ⟨model, hmodel, -⟩ := WanVAECondition.init_built videoVae_encoderFits videoVae_decoderFits ConditionWeights.ones
  obtain ⟨out, halone, htile⟩ := tile_decode_cond videoVae_encoderFits videoVae_decoderFits hmodel (by decide)
    nearestPixels (.half 16) id two_pos (by decide : 1 ≤ 2) (by decide : 1 ≤ 3)
    (windowed_fill 2 4 2 ⟨16, 2, 3⟩ 1) (windowed_fill 2 4 5 ⟨3, 16, 24⟩ 1) (windowed_fill 2 4 5 ⟨1, 16, 24⟩ 1)
  refine ⟨model, _, hmodel, htile 3 (by decide) ⟨0, (model.vae.each 0).cleared⟩, ?_⟩
  intro clip hclip
  obtain ⟨j, hj, rfl⟩ := List.mem_map.1 hclip
  refine (blocks_length fun i hi => ?_).trans (by decide : 4 * 5 = 20)
  rw [List.length_map]
  exact (halone i hi j (List.mem_range.1 hj) model.vae.cleared).2

end Decode

end Viduce.Vae
