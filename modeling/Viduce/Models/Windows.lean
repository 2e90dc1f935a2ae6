/-
Windows of a batch of clips (`Wan2_1SpatialTiledEncoder3D._encode` and `_decode`, `models/precond.py`): each clip is cut into
windows of t frames, the windows of all clips go through the autoencoder `batch_size` at a time, and what comes out is put
together to clips again. The caches of the autoencoder go from one batch to the next, the last of which may be smaller.

- `throughWindows_ok`, `runWindows_ok`: whatever the batch size, each clip is the windows of that clip, in order.
- `tile_codes`: 5 k frames become 2 k latents, and these 5 k frames; each window is coded as it is alone.
-/
import Mathlib.Tactic
import Viduce.Core.Tensor
import Viduce.Models.BatchVae

namespace Viduce.Vae

variable {F G : Type}

/-- `rearrange(x, "b c (k t) h w -> (k b) c t h w", t=t)` -/
def toWindows (t : ℕ) (x : List (List F)) : Except PyErr (List (List F)) :=
  if frames x % t = 0 then
    .ok ((List.range (frames x / t)).flatMap fun i => x.map fun clip => (clip.drop (i * t)).take t)
  else .error ⟨.other, "can't divide axis of length in chunks of t"⟩

/-- `rearrange(x, "(k b) c t h w -> b c (k t) h w", b=b)` -/
def toClips (b : ℕ) (x : List (List F)) : Except PyErr (List (List F)) :=
  if x.length % b = 0 then
    .ok ((List.range b).map fun j => (List.range (x.length / b)).flatMap fun i => x.getD (i * b + j) [])
  else .error ⟨.other, "can't divide axis of length in chunks of b"⟩

/-- `x.split(batch_size)` -/
def split (batchSize : ℕ) : ℕ → List F → List (List F)
  | _, [] => []
  | 0, _ => []
  | n + 1, x => x.take batchSize :: split batchSize n (x.drop batchSize)

/-- `rearrange`, the model on one batch of windows after another, `torch.cat`, `rearrange` back -/
def throughWindows (t batchSize : ℕ) (model : List (List F) → Except PyErr (List (List G))) (x : List (List F)) :
    Except PyErr (List (List G)) := do
  let windows ← toWindows t x
  let outs ← (split batchSize windows.length windows).mapM model
  toClips x.length outs.flatten

/-- the same with a model that keeps caches -/
def runWindows {σ : Type} (t batchSize : ℕ) (model : List (List F) → Py σ (List (List G))) (x : List (List F)) :
    Py σ (List (List G)) := do
  let windows ← Py.ofExcept (toWindows t x)
  let outs ← Py.each model (split batchSize windows.length windows)
  Py.ofExcept (toClips x.length outs.flatten)

/-- a split has all of the list, in order -/
theorem flatten_split {batchSize : ℕ} (hb : 0 < batchSize) (n : ℕ) (x : List F) (hn : x.length ≤ n) :
    (split batchSize n x).flatten = x := by
  induction n generalizing x with
  | zero =>
    obtain rfl := List.eq_nil_of_length_eq_zero (Nat.le_zero.1 hn)
    rfl
  | succ n ih =>
    cases x with
    | nil => rfl
    | cons a x =>
      rw [split, List.flatten_cons, ih, List.take_append_drop]
      · rw [List.length_drop, List.length_cons] at *
        omega
      · exact List.cons_ne_nil a x

theorem split_ne_nil {batchSize : ℕ} (hb : 0 < batchSize) (n : ℕ) (x : List F) : ∀ batch ∈ split batchSize n x, batch ≠ [] := by
  induction n generalizing x with
  | zero => cases x <;> simp [split]
  | succ n ih =>
    cases x with
    | nil => simp [split]
    | cons a x =>
      rw [split]
      · refine List.forall_mem_cons.2 ⟨List.length_pos_iff.1 ?_, ih _⟩
        rw [List.length_take, List.length_cons]
        omega
      · exact List.cons_ne_nil a x

/-- window i of a clip -/
def window (t : ℕ) (clip : List F) (i : ℕ) : List F := (clip.drop (i * t)).take t

/-- a window of a clip of full windows -/
theorem window_length {t k i : ℕ} {clip : List F} (hlen : clip.length = k * t) (hi : i < k) : (window t clip i).length = t := by
  have hle : (i + 1) * t ≤ k * t := Nat.mul_le_mul_right t hi
  rw [Nat.succ_mul] at hle
  rw [window, List.length_take, List.length_drop, hlen]
  omega

theorem mem_window {t i : ℕ} {clip : List F} {a : F} (ha : a ∈ window t clip i) : a ∈ clip :=
  List.mem_of_mem_drop (List.mem_of_mem_take ha)

/-- the windows of all clips -/
def allWindows (t k : ℕ) (x : List (List F)) : List (List F) :=
  (List.range k).flatMap fun i => x.map fun clip => window t clip i

theorem toWindows_ok {t k : ℕ} (ht : 0 < t) {x : List (List F)} (hx : ∀ clip ∈ x, clip.length = k * t) (hne : x ≠ []) :
    toWindows t x = .ok (allWindows t k x) := by
  obtain ⟨clip, rest, rfl⟩ := List.exists_cons_of_ne_nil hne
  have hframes : frames (clip :: rest) = k * t := hx clip List.mem_cons_self
  rw [toWindows, hframes, if_pos (Nat.mul_mod_left k t), Nat.mul_div_cancel k ht]
  rfl

/-- put together, the windows number i * b + j, for i < k, are clip j -/
theorem toClips_ok {b k : ℕ} (hb : 0 < b) {f : ℕ → List (List G)} (hf : ∀ i < k, (f i).length = b) :
    toClips b ((List.range k).flatMap f) =
      .ok ((List.range b).map fun j => (List.range k).flatMap fun i => (f i).getD j []) := by
  rw [toClips, blocks_length hf, if_pos (Nat.mul_mod_left k b), Nat.mul_div_cancel k hb]
  congr 1
  refine List.map_congr_left ?_
  intro j hj
  have hjb := List.mem_range.1 hj
  refine congrArg List.flatten (List.map_congr_left ?_)
  intro i hi
  rw [List.getD_eq_getElem?_getD, List.getD_eq_getElem?_getD, blocks_getElem? hf (List.mem_range.1 hi) hjb]

/-- the clips of a batch by number -/
theorem map_getD_range (x : List (List F)) (g : List F → List G) :
    ((List.range x.length).map fun j => g (x.getD j [])) = x.map g := by
  conv_rhs => rw [← range_getD x []]
  rw [List.map_map]
  rfl

theorem mem_allWindows {t k : ℕ} {x : List (List F)} {w : List F} (hw : w ∈ allWindows t k x) :
    ∃ clip ∈ x, ∃ i < k, w = window t clip i := by
  obtain ⟨i, hi, hwi⟩ := List.mem_flatMap.1 hw
  obtain ⟨clip, hclip, rfl⟩ := List.mem_map.1 hwi
  exact ⟨clip, hclip, i, List.mem_range.1 hi, rfl⟩

/-- a batch of a split has windows of the clips, and at least one -/
theorem mem_split {batchSize t k : ℕ} (hb : 0 < batchSize) {x : List (List F)} {batch : List (List F)}
    (hbatch : batch ∈ split batchSize (allWindows t k x).length (allWindows t k x)) :
    batch ≠ [] ∧ ∀ w ∈ batch, ∃ clip ∈ x, ∃ i < k, w = window t clip i := by
  refine ⟨split_ne_nil hb _ _ batch hbatch, fun w hw => mem_allWindows ?_⟩
  rw [← flatten_split hb (allWindows t k x).length (allWindows t k x) le_rfl]
  exact List.mem_flatten.2 ⟨batch, hbatch, hw⟩

/-- what the model makes of each window, put together -/
theorem toClips_windows {t k batchSize : ℕ} (hb : 0 < batchSize) (r : List F → List G) {x : List (List F)} (hne : x ≠ []) :
    toClips x.length ((split batchSize (allWindows t k x).length (allWindows t k x)).map (List.map r)).flatten =
      .ok (x.map fun clip => (List.range k).flatMap fun i => r (window t clip i)) := by
  have houts : ((split batchSize (allWindows t k x).length (allWindows t k x)).map (List.map r)).flatten =
      (List.range k).flatMap fun i => x.map fun clip => r (window t clip i) := by
    rw [← List.map_flatten, flatten_split hb _ _ le_rfl, allWindows, List.map_flatMap]
    simp only [List.map_map, Function.comp_def]
  rw [houts]
  calc toClips x.length ((List.range k).flatMap fun i => x.map fun clip => r (window t clip i))
      = .ok ((List.range x.length).map fun j => (List.range k).flatMap fun i =>
          (x.map fun clip => r (window t clip i)).getD j []) :=
        toClips_ok (List.length_pos_iff.2 hne) fun i _ => List.length_map _
    _ = .ok ((List.range x.length).map fun j => (List.range k).flatMap fun i => r (window t (x.getD j []) i)) := by
        refine congrArg Except.ok (List.map_congr_left fun j hj => congrArg List.flatten (List.map_congr_left ?_))
        intro i _
        exact getD_map (List.mem_range.1 hj)
    _ = .ok (x.map fun clip => (List.range k).flatMap fun i => r (window t clip i)) :=
        congrArg Except.ok (map_getD_range x fun clip => (List.range k).flatMap fun i => r (window t clip i))

/-- **Window by window.** If the model gives r of each window of a batch, then whatever the batch size, each clip becomes
what r gives of its windows, in their order. -/
theorem throughWindows_ok {t batchSize k : ℕ} (ht : 0 < t) (hb : 0 < batchSize)
    {model : List (List F) → Except PyErr (List (List G))} {r : List F → List G} {x : List (List F)} (hne : x ≠ [])
    (hx : ∀ clip ∈ x, clip.length = k * t)
    (hmodel : ∀ batch, (∀ w ∈ batch, ∃ clip ∈ x, ∃ i < k, w = window t clip i) → model batch = .ok (batch.map r)) :
    throughWindows t batchSize model x = .ok (x.map fun clip => (List.range k).flatMap fun i => r (window t clip i)) := by
  rw [throughWindows, toWindows_ok ht hx hne, ok_bind, mapM_ok fun batch hbatch => hmodel batch (mem_split hb hbatch).2,
    ok_bind]
  exact toClips_windows hb r hne

/-- **Window by window, with caches.** -/
theorem runWindows_ok {σ : Type} {t batchSize k : ℕ} (ht : 0 < t) (hb : 0 < batchSize)
    {model : List (List F) → Py σ (List (List G))} {r : List F → List G} {x : List (List F)} (hne : x ≠ [])
    (hx : ∀ clip ∈ x, clip.length = k * t)
    (hmodel : ∀ batch ≠ [], (∀ w ∈ batch, ∃ clip ∈ x, ∃ i < k, w = window t clip i) →
      ∀ s, ∃ s', (model batch).run s = (.ok (batch.map r), s')) (s : σ) :
    ∃ s', (runWindows t batchSize model x).run s =
      (.ok (x.map fun clip => (List.range k).flatMap fun i => r (window t clip i)), s') := by
  obtain ⟨s', hrun⟩ := Py.each_ok (fun batch hbatch => hmodel batch (mem_split hb hbatch).1 (mem_split hb hbatch).2) s
  refine ⟨s', ?_⟩
  rw [runWindows, toWindows_ok ht hx hne, Py.run_bind_ofExcept]
  simp only
  rw [Py.run_bind_ok hrun, toClips_windows hb r hne]
  rfl

/-- blocks of t frames are the windows of the clip they make up -/
theorem window_flatMap {t k : ℕ} {f : ℕ → List F} (hf : ∀ i < k, (f i).length = t) {i : ℕ} (hi : i < k) :
    window t ((List.range k).flatMap f) i = f i := by
  refine List.ext_getElem? ?_
  intro n
  rw [window, List.getElem?_take, List.getElem?_drop]
  split_ifs with hn
  · exact blocks_getElem? hf hi hn
  · rw [List.getElem?_eq_none (by rw [hf i hi]; omega)]

/-! ## The autoencoder -/

section Tile

open Feature

variable [Feature F] {zDim : ℕ}

/-- `_encode` -/
def tileEncode (vae : WanVAE F) (scale : Scale F zDim) (batchSize : ℕ) (x : List (List F)) : Py (AnyCaches F) (List (List F)) :=
  runWindows 5 batchSize (encodeBatch vae scale) x

/-- `_decode`; `clamp` is `.clamp(-1, 1)` on a frame -/
def tileDecode (vae : WanVAE F) (scale : Scale F zDim) (clamp : F → F) (batchSize : ℕ) (x : List (List F)) :
    Py (AnyCaches F) (List (List F)) := do
  let out ← runWindows 2 batchSize (decodeBatch vae scale) x
  pure (out.map (List.map clamp))

/-- what becomes of 5 frames alone, whatever the caches held: 2 latents, and 5 frames again -/
structure CodesAlone (vae : WanVAE F) (scale : Scale F zDim) (w z out : List F) : Prop where
  encodes : ∀ s, ((vae.encode scale w).run s).1 = .ok z
  latents : z.length = 2
  decodes : ∀ s, ((vae.decode scale z).run s).1 = .ok out
  frames : out.length = 5

section Alone

variable {cfg : NetConfig} {weights : VaeWeights F} {vae : WanVAE F} (scale : Scale F cfg.zDim)

theorem encodes_alone (enc : cfg.EncoderFits) (hvae : WanVAE.init cfg weights = .ok vae)
    (htime : cfg.timeSteps 0 (cfg.dimMult.length - 1) = 2)
    {w : List F} {H W : ℕ} (hlen : w.length = 5) (hw : ∀ a ∈ w, dim a = ⟨3, H, W⟩)
    (hH : 2 ^ (cfg.dimMult.length - 1) ≤ H) (hW : 2 ^ (cfg.dimMult.length - 1) ≤ W) :
    ∃ z, (∀ s, ((vae.encode scale w).run s).1 = .ok z) ∧ z.length = 2 ∧
      ∀ a ∈ z, dim a = ⟨cfg.zDim, H / 2 ^ (cfg.dimMult.length - 1), W / 2 ^ (cfg.dimMult.length - 1)⟩ := by
  have hne : w ≠ [] := List.length_pos_iff.1 (by omega)
  have hrun := WanVAE.encode_run enc hvae scale hne hw hH hW (.inl htime.le)
  refine ⟨_, fun s => congrArg Prod.fst (hrun s).1, ?_, (hrun vae.cleared).2.2⟩
  exact (hrun vae.cleared).2.1.trans (by simp [hlen, htime])

theorem decodes_alone (dec : cfg.forDecoder.DecoderFits) (hvae : WanVAE.init cfg weights = .ok vae)
    (htime : cfg.forDecoder.timeSteps 0 (cfg.dimMult.length - 1) = 2) {z : List F} {h w : ℕ} (hlen : z.length = 2)
    (hz : ∀ a ∈ z, dim a = ⟨cfg.zDim, h, w⟩) (hh : 1 ≤ h) (hw : 1 ≤ w) :
    ∃ out, (∀ s, ((vae.decode scale z).run s).1 = .ok out) ∧ out.length = 5 ∧
      ∀ a ∈ out, dim a = ⟨3, 2 ^ (cfg.dimMult.length - 1) * h, 2 ^ (cfg.dimMult.length - 1) * w⟩ := by
  have hne : z ≠ [] := List.length_pos_iff.1 (by omega)
  have hrun := WanVAE.decode_run dec hvae scale hne hz hh hw
  refine ⟨_, fun s => congrArg Prod.fst (hrun s).1, ?_, (hrun vae.cleared).2.2⟩
  exact (hrun vae.cleared).2.1.trans (by simp [hlen, htime])

omit [Feature F] in
/-- the clips of windows of what f gives of them, by window -/
theorem map_windows {G : Type} {k t : ℕ} {x : List (List F)} {f : List F → List G} (g : List G → List G)
    (hf : ∀ clip ∈ x, ∀ i < k, (f (window 5 clip i)).length = t) :
    ((x.map fun clip => (List.range k).flatMap fun i => f (window 5 clip i)).map fun u =>
      (List.range k).flatMap fun i => g (window t u i)) =
    x.map fun clip => (List.range k).flatMap fun i => g (f (window 5 clip i)) := by
  rw [List.map_map]
  refine List.map_congr_left fun clip hclip => congrArg List.flatten (List.map_congr_left ?_)
  intro i hi
  rw [window_flatMap (fun i hi => hf clip hclip i hi) (List.mem_range.1 hi)]

/-- clips whose windows are encoded alone -/
theorem tileEncode_ok (hvae : vae.Proper) {k b : ℕ} (hb : 0 < b) {x : List (List F)} {d : Dim} {z : List F → List F}
    (hne : x ≠ []) (hlen : ∀ clip ∈ x, clip.length = k * 5) (hx : ∀ clip ∈ x, ∀ a ∈ clip, dim a = d)
    (hz : ∀ clip ∈ x, ∀ i < k, ∀ s, ((vae.encode scale (window 5 clip i)).run s).1 = .ok (z (window 5 clip i)))
    (s : AnyCaches F) :
    ((tileEncode vae scale b x).run s).1 = .ok (x.map fun clip => (List.range k).flatMap fun i => z (window 5 clip i)) := by
  have hbatch : ∀ batch ≠ [], (∀ w ∈ batch, ∃ clip ∈ x, ∃ i < k, w = window 5 clip i) →
      ∀ s, ∃ s', (encodeBatch vae scale batch).run s = (.ok (batch.map z), s') := by
    intro batch hbne hwindows
    refine encodeBatch_ok (t := 5) (d := d) hvae hbne ?_ ?_ ?_ <;> intro w hw <;>
      obtain ⟨clip, hclip, i, hi, rfl⟩ := hwindows w hw
    · exact window_length (hlen clip hclip) hi
    · exact fun a ha => hx clip hclip a (mem_window ha)
    · exact hz clip hclip i hi
  obtain ⟨s', hrun⟩ := runWindows_ok (by decide) hb hne hlen hbatch s
  exact congrArg Prod.fst hrun

/-- latents whose windows are decoded alone -/
theorem tileDecode_ok (hvae : vae.Proper) (clamp : F → F) {k b : ℕ} (hb : 0 < b) {x : List (List F)} {d : Dim}
    {out : List F → List F} (hne : x ≠ []) (hlen : ∀ clip ∈ x, clip.length = k * 2)
    (hx : ∀ clip ∈ x, ∀ a ∈ clip, dim a = d)
    (hout : ∀ clip ∈ x, ∀ i < k, ∀ s, ((vae.decode scale (window 2 clip i)).run s).1 = .ok (out (window 2 clip i)))
    (s : AnyCaches F) :
    ((tileDecode vae scale clamp b x).run s).1 =
      .ok (x.map fun clip => (List.range k).flatMap fun i => (out (window 2 clip i)).map clamp) := by
  have hbatch : ∀ batch ≠ [], (∀ w ∈ batch, ∃ clip ∈ x, ∃ i < k, w = window 2 clip i) →
      ∀ s, ∃ s', (decodeBatch vae scale batch).run s = (.ok (batch.map out), s') := by
    intro batch hbne hwindows
    refine decodeBatch_ok (t := 2) (d := d) hvae hbne ?_ ?_ ?_ <;> intro w hw <;>
      obtain ⟨clip, hclip, i, hi, rfl⟩ := hwindows w hw
    · exact window_length (hlen clip hclip) hi
    · exact fun a ha => hx clip hclip a (mem_window ha)
    · exact hout clip hclip i hi
  obtain ⟨s', hrun⟩ := runWindows_ok (by decide) hb hne hlen hbatch s
  rw [tileDecode, Py.run_bind_ok hrun, Py.run_pure]
  simp only [List.map_map, Function.comp_def, List.map_flatMap]

end Alone

/-- **Tiles of video.** A batch of clips of 5 k frames is encoded to clips of 2 k latents, and these are decoded to clips of
5 k frames of the same size: each window of 5 frames becomes what it becomes alone, whatever the batch sizes and whatever
the caches held. -/
theorem tile_codes {cfg : NetConfig} (enc : cfg.EncoderFits) (dec : cfg.forDecoder.DecoderFits) {weights : VaeWeights F}
    {vae : WanVAE F} (hvae : WanVAE.init cfg weights = .ok vae) (henc : cfg.timeSteps 0 (cfg.dimMult.length - 1) = 2)
    (hdec : cfg.forDecoder.timeSteps 0 (cfg.dimMult.length - 1) = 2) (scale : Scale F cfg.zDim) (clamp : F → F)
    {k H W : ℕ} {x : List (List F)} (hne : x ≠ []) (hlen : ∀ clip ∈ x, clip.length = k * 5)
    (hx : ∀ clip ∈ x, ∀ a ∈ clip, dim a = ⟨3, H, W⟩) (hH : 2 ^ (cfg.dimMult.length - 1) ∣ H)
    (hW : 2 ^ (cfg.dimMult.length - 1) ∣ W) (hHpos : 0 < H) (hWpos : 0 < W) :
    ∃ z out : List F → List F,
      (∀ clip ∈ x, ∀ i < k, CodesAlone vae scale (window 5 clip i) (z (window 5 clip i)) (out (window 5 clip i)) ∧
        ∀ a ∈ out (window 5 clip i), dim a = ⟨3, H, W⟩) ∧
      ∀ b > 0, ∀ b' > 0, ∀ s s' : AnyCaches F,
        ((tileEncode vae scale b x).run s).1 =
          .ok (x.map fun clip => (List.range k).flatMap fun i => z (window 5 clip i)) ∧
        ((tileDecode vae scale clamp b' (x.map fun clip => (List.range k).flatMap fun i => z (window 5 clip i))).run s').1 =
          .ok (x.map fun clip => (List.range k).flatMap fun i => (out (window 5 clip i)).map clamp) := by
  have hpow : 0 < 2 ^ (cfg.dimMult.length - 1) := Nat.two_pow_pos _
  have hHle := Nat.le_of_dvd hHpos hH
  have hWle := Nat.le_of_dvd hWpos hW
  have hproper := (WanVAE.built hvae).proper enc dec
  -- one window
  have hencodes := fun (w : List F) (hlen : w.length = 5) (hw : ∀ a ∈ w, dim a = ⟨3, H, W⟩) =>
    encodes_alone scale enc hvae henc hlen hw hHle hWle
  have hdecodes := fun (z : List F) (hlen : z.length = 2) (hz : ∀ a ∈ z, dim a = ⟨cfg.zDim, _, _⟩) =>
    decodes_alone scale dec hvae hdec hlen hz (Nat.div_pos hHle hpow) (Nat.div_pos hWle hpow)
  choose! z hz using hencodes
  choose! out hout using hdecodes
  have hwlen : ∀ clip ∈ x, ∀ i < k, (window 5 clip i).length = 5 := fun clip hclip i hi => window_length (hlen clip hclip) hi
  have hwdim : ∀ clip ∈ x, ∀ i, ∀ a ∈ window 5 clip i, dim a = ⟨3, H, W⟩ := fun clip hclip i a ha =>
    hx clip hclip a (mem_window ha)
  have hzw := fun clip hclip i hi => hz (window 5 clip i) (hwlen clip hclip i hi) (hwdim clip hclip i)
  have houtw := fun clip hclip i hi => hout _ (hzw clip hclip i hi).2.1 (hzw clip hclip i hi).2.2
  refine ⟨z, fun w => out (z w), fun clip hclip i hi => ⟨⟨(hzw clip hclip i hi).1, (hzw clip hclip i hi).2.1,
    (houtw clip hclip i hi).1, (houtw clip hclip i hi).2.1⟩, fun a ha => ?_⟩, fun b hb b' hb' s s' => ⟨?_, ?_⟩⟩
  · have hdim := (houtw clip hclip i hi).2.2 a ha
    rwa [Nat.mul_div_cancel' hH, Nat.mul_div_cancel' hW] at hdim
  · exact tileEncode_ok scale hproper hb hne hlen hx (fun clip hclip i hi => (hzw clip hclip i hi).1) s
  · have hzlen : ∀ u ∈ x.map fun clip => (List.range k).flatMap fun i => z (window 5 clip i), u.length = k * 2 :=
      List.forall_mem_map.2 fun clip hclip => blocks_length fun i hi => (hzw clip hclip i hi).2.1
    have hzdim : ∀ u ∈ x.map fun clip => (List.range k).flatMap fun i => z (window 5 clip i), ∀ a ∈ u,
        dim a = ⟨cfg.zDim, H / 2 ^ (cfg.dimMult.length - 1), W / 2 ^ (cfg.dimMult.length - 1)⟩ := by
      refine List.forall_mem_map.2 ?_
      intro clip hclip a ha
      obtain ⟨i, hi, hmem⟩ := List.mem_flatMap.1 ha
      exact (hzw clip hclip i (List.mem_range.1 hi)).2.2 a hmem
    -- the windows of the latents are the latents of the windows
    have hdecode : ∀ u ∈ x.map fun clip => (List.range k).flatMap fun i => z (window 5 clip i), ∀ i < k,
        ∀ s, ((vae.decode scale (window 2 u i)).run s).1 = .ok (out (window 2 u i)) := by
      refine List.forall_mem_map.2 ?_
      intro clip hclip i hi s
      rw [window_flatMap (fun i hi => (hzw clip hclip i hi).2.1) hi]
      exact (houtw clip hclip i hi).1 s
    rw [tileDecode_ok scale hproper clamp hb' (by simpa using hne) hzlen hzdim hdecode s',
      map_windows (fun u => (out u).map clamp) fun clip hclip i hi => (hzw clip hclip i hi).2.1]

/-- two clips of 20 frames, encoded in batches of 3 windows and decoded in batches of 5 -/
theorem tile_codes_videoVae :
    ∃ (vae : WanVAE Pixels) (z clips : List (List Pixels)), WanVAE.init videoVae .ones = .ok vae ∧
      ((tileEncode vae (.half 16) 3 (List.replicate 2 (List.replicate 20 (.fill ⟨3, 8, 8⟩ 1)))).run ⟨0, (vae.each 0).cleared⟩).1 =
        .ok z ∧
      ((tileDecode vae (.half 16) id 5 z).run ⟨1, (vae.each 1).cleared⟩).1 = .ok clips ∧ ∀ clip ∈ clips, clip.length = 20 := by
  obtain ⟨vae, hvae⟩ := WanVAE.init_ok videoVae_encoderFits videoVae_decoderFits VaeWeights.ones
  obtain ⟨z, out, halone, htile⟩ := tile_codes videoVae_encoderFits videoVae_decoderFits hvae
    (by decide) (by decide) (.half 16) id
    (k := 4) (H := 8) (W := 8) (x := List.replicate 2 (List.replicate 20 (.fill ⟨3, 8, 8⟩ 1))) (by simp)
    (fun clip hclip => by rw [List.eq_of_mem_replicate hclip]; rfl)
    (fun clip hclip a ha => by
      rw [List.eq_of_mem_replicate hclip] at ha
      rw [List.eq_of_mem_replicate ha]
      rfl) (by decide) (by decide) (by decide) (by decide)
  obtain ⟨hencode, hdecode⟩ := htile 3 (by decide) 5 (by decide) ⟨0, (vae.each 0).cleared⟩ ⟨1, (vae.each 1).cleared⟩
  refine ⟨vae, _, _, hvae, hencode, hdecode, List.forall_mem_map.2 ?_⟩
  intro clip hclip
  exact blocks_length fun i hi => (List.length_map _).trans (halone clip hclip i hi).1.frames

end Tile

end Viduce.Vae
