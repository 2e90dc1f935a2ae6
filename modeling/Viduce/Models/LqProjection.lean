/-
The encoder of the conditioning clip (`LQProj`, `models/utils.py`, with `_encode` of `LQProjSpatialTiledEncoder3D`,
`models/precond.py`) and the buffered variant of it (`Buffer_LQ4x_Proj`). A clip is taken 4 frames at a time, its first frame
four times. The caches are written just before they are read, so a convolution is given the last frames of the same chunk in
front of it. What the two convolutions compute from a window of frames is a parameter; `ff` is 1.

- `first_run`, `second_run`: what becomes of 4 frames, whatever the caches held.
- `forward_ok`: a clip, chunk by chunk.
- `lq_latents`: through windows of 5 frames, each latent is made of the frames that the channels of the mask stand for.
- `stream_forward_joins`: a video that comes in clips has, together, the outputs that it has at once.
-/
import Mathlib.Tactic
import Viduce.Models.Windows
import Viduce.Models.MaskEncoder

namespace Viduce.Utils

open Viduce.Streaming

/-! ## Model -/

/-- a frame: channels, rows, columns -/
abbrev Picture (α : Type) (c H W : ℕ) : Type := Fin c → Fin H → Fin W → α

variable {α S V₁ V₂ : Type} {c H W : ℕ}

/-- line a of block i -/
def lineOf {n k : ℕ} (i : Fin (n / k)) (a : Fin k) : Fin n :=
  ⟨i * k + a, calc i * k + a < i * k + k := Nat.add_lt_add_left a.isLt _
    _ = (i + 1) * k := (Nat.succ_mul _ k).symm
    _ ≤ n / k * k := Nat.mul_le_mul_right k i.isLt
    _ ≤ n := Nat.div_mul_le_self n k⟩

/-- the pixels of a block, on top of each other -/
def shuffled (hh ww : ℕ) (f : Picture α c H W) : Picture α (c * (hh * ww)) (H / hh) (W / ww) := fun k i j =>
  f k.divNat (lineOf i k.modNat.divNat) (lineOf j k.modNat.modNat)

/-- `PixelShuffle3d.forward` -/
def pixelShuffle (hh ww : ℕ) (x : List (Picture α c H W)) :
    Except PyErr (List (Picture α (c * (hh * ww)) (H / hh) (W / ww))) :=
  if H % hh = 0 ∧ W % ww = 0 then .ok (x.map (shuffled hh ww))
  else .error ⟨.other, "can't divide axis of length in chunks"⟩

/-- the lengths are along time -/
structure CausalConv3d (S V : Type) where
  kernel : ℕ
  stride : ℕ
  padding : ℕ
  weight : List S → V

/-- `F.pad(x, padding, mode="replicate")` along time, which cuts frames off if p is negative -/
def replicatePad (p : ℤ) (x : List S) : List S :=
  match x with
  | [] => []
  | a :: _ => List.replicate p.toNat a ++ x.drop (-p).toNat

def CausalConv3d.forward {V : Type} (conv : CausalConv3d S V) (x : List S) (cacheX : Option (List S)) :
    Except PyErr (List V) :=
  let padded := match cacheX with
    | some c => if 0 < 2 * conv.padding then replicatePad (2 * conv.padding - c.length) (c ++ x)
      else replicatePad (2 * conv.padding) x
    | none => replicatePad (2 * conv.padding) x
  if conv.kernel ≤ padded.length then .ok (slide conv.kernel conv.stride conv.weight padded)
  else .error ⟨.runtimeError, "Kernel size can't be greater than actual input size"⟩

/-- both convolutions, each with its norm and activation -/
structure Projection (S V₁ V₂ : Type) where
  weight1 : List S → V₁
  act1 : V₁ → V₁
  weight2 : List V₁ → V₂
  act2 : V₂ → V₂

def Projection.conv1 (p : Projection S V₁ V₂) : CausalConv3d S V₁ := ⟨4, 2, 1, p.weight1⟩

def Projection.conv2 (p : Projection S V₁ V₂) : CausalConv3d V₁ V₂ := ⟨4, 2, 1, p.weight2⟩

structure Cache (S V₁ : Type) where
  conv1 : Option (List S)
  conv2 : Option (List V₁)

/-- what changes of the module; the constructor makes no `cache` -/
structure State (S V₁ : Type) where
  cache : Option (Cache S V₁)
  clipIdx : ℕ

def CACHE_T : ℕ := 2

def clearCache : Py (State S V₁) Unit := Py.modify fun _ => ⟨some ⟨none, none⟩, 0⟩

/-- `self.cache` -/
def selfCache : Py (State S V₁) (Cache S V₁) := do
  let s ← Py.get
  match s.cache with
  | none => Py.raise ⟨.attributeError, "object has no attribute 'cache'"⟩
  | some c => pure c

def setCache (c : Cache S V₁) : Py (State S V₁) Unit := Py.modify fun s => { s with cache := some c }

namespace Projection

variable (p : Projection S V₁ V₂)

/-- a chunk up to `act1`, with both caches -/
def first (x : List S) : Py (State S V₁) (List V₁) := do
  let c ← selfCache
  setCache { c with conv1 := some (x.rtake CACHE_T) }
  let c ← selfCache
  let x ← Py.ofExcept (p.conv1.forward x c.conv1)
  let x := x.map p.act1
  let c ← selfCache
  setCache { c with conv2 := some (x.rtake CACHE_T) }
  pure x

/-- and from there on -/
def second (x : List V₁) : Py (State S V₁) (List V₂) := do
  let c ← selfCache
  let x ← Py.ofExcept (p.conv2.forward x c.conv2)
  pure (x.map p.act2)

end Projection

/-- `for i in range(n)`, with a `continue` or an `out_x.append` in each iteration -/
def appends {σ β : Type} (body : ℕ → Py σ (Option β)) : ℕ → Py σ (List β)
  | 0 => pure []
  | n + 1 => do
    let outX ← appends body n
    let x ← body n
    pure (outX ++ x.toList)

/-- `torch.cat(out_x, dim=2)` -/
def catAll {β : Type} (outX : List (List β)) : Except PyErr (List β) :=
  if outX = [] then .error ⟨.runtimeError, "torch.cat(): expected a non-empty list of Tensors"⟩ else .ok outX.flatten

/-- `video[:, :, :1].repeat(1, 1, 3, 1, 1)` in front -/
def lead {F : Type} (video : List F) : List F := (video.take 1).flatMap (List.replicate 3) ++ video

/-- the number of iterations over a video -/
def iters {F : Type} (video : List F) : ℕ := (1 + ((video.length : ℤ) - 1) / 4).toNat

/-- chunk i, with its pixels shuffled -/
def chunk (hh ww : ℕ) (video : List (Picture α c H W)) (i : ℕ) :
    Except PyErr (List (Picture α (c * (hh * ww)) (H / hh) (W / ww))) :=
  pixelShuffle hh ww (((lead video).drop (i * 4)).take 4)

/-- `LQProj.forward` -/
def LQProj.forward {hh ww : ℕ} (p : Projection (Picture α (c * (hh * ww)) (H / hh) (W / ww)) V₁ V₂)
    (video : List (Picture α c H W)) : Py (State (Picture α (c * (hh * ww)) (H / hh) (W / ww)) V₁) (List V₂) := do
  clearCache
  let outX ← appends (fun i => do
    let x ← Py.ofExcept (chunk hh ww video i)
    let x ← p.first x
    let x ← p.second x
    pure (some x)) (iters video)
  Py.ofExcept (catAll outX)

/-- `Buffer_LQ4x_Proj`: `tokens` are the pixels of one latent, in the order of `rearrange(out_x, "b c f h w -> b (f h w) c")` -/
structure Buffer (S V₁ V₂ T O : Type) extends Projection S V₁ V₂ where
  tokens : V₂ → List T
  linearLayers : List (T → O)

namespace Buffer

variable {T O : Type} {hh ww : ℕ}

/-- `outputs`, a layer after the other -/
def outputs (p : Buffer S V₁ V₂ T O) (outX : List V₂) : List (List O) :=
  p.linearLayers.map fun layer => (outX.flatMap p.tokens).map layer

variable (p : Buffer (Picture α (c * (hh * ww)) (H / hh) (W / ww)) V₁ V₂ T O)

/-- `Buffer_LQ4x_Proj.forward` -/
def forward (video : List (Picture α c H W)) : Py (State (Picture α (c * (hh * ww)) (H / hh) (W / ww)) V₁) (List (List O)) := do
  clearCache
  let outX ← appends (fun i => do
    let x ← Py.ofExcept (chunk hh ww video i)
    let x ← p.first x
    if i = 0 then pure none
    else do
      let x ← p.second x
      pure (some x)) (iters video)
  let outX ← Py.ofExcept (catAll outX)
  pure (p.outputs outX)

/-- `self.clip_idx += 1` -/
def countClip : Py (State S V₁) Unit := Py.modify fun s => { s with clipIdx := s.clipIdx + 1 }

def streamForward (videoClip : List (Picture α c H W)) :
    Py (State (Picture α (c * (hh * ww)) (H / hh) (W / ww)) V₁) (Option (List (List O))) := do
  let s ← Py.get
  if s.clipIdx = 0 then do
    let x ← Py.ofExcept (pixelShuffle hh ww (lead videoClip))
    let _ ← p.first x
    countClip
    pure none
  else do
    let x ← Py.ofExcept (pixelShuffle hh ww videoClip)
    let x ← p.first x
    let x ← p.second x
    countClip
    pure (some (p.outputs x))

/-- clip after clip -/
def streams : List (List (Picture α c H W)) →
    Py (State (Picture α (c * (hh * ww)) (H / hh) (W / ww)) V₁) (List (Option (List (List O))))
  | [] => pure []
  | clip :: clips => do
    let out ← p.streamForward clip
    let outs ← streams clips
    pure (out :: outs)

end Buffer

/-- `LQProjSpatialTiledEncoder3D._encode` -/
def LQProjSpatialTiledEncoder3D.encodeTile {hh ww : ℕ} (p : Projection (Picture α (c * (hh * ww)) (H / hh) (W / ww)) V₁ V₂)
    (batchSize : ℕ) (s : State (Picture α (c * (hh * ww)) (H / hh) (W / ww)) V₁) (x : List (List (Picture α c H W))) :
    Except PyErr (List (List V₂)) :=
  Vae.throughWindows 5 batchSize (fun batch => batch.mapM fun clip => ((LQProj.forward p clip).run s).1) x

/-! ## One chunk -/

section Chunk

variable (p : Projection S V₁ V₂)

/-- what `act1` gives for a chunk of 4: the first window begins with the last two frames -/
def Projection.inner (x : List S) : List V₁ := [p.act1 (p.weight1 (x.drop 2 ++ x.take 2)), p.act1 (p.weight1 x)]

/-- the latent of a chunk of 4 -/
def Projection.code (x : List S) : V₂ := p.act2 (p.weight2 (p.inner x ++ p.inner x))

/-- whatever the caches held, the chunk alone makes what they hold then -/
theorem first_run {x : List S} (hx : x.length = 4) (cache : Cache S V₁) (n : ℕ) :
    (p.first x).run ⟨some cache, n⟩ = (.ok (p.inner x), ⟨some ⟨some (x.drop 2), some (p.inner x)⟩, n⟩) := by
  obtain ⟨a, b, c, d, rfl⟩ := List.length_eq_four.1 hx
  have hforward : p.conv1.forward [a, b, c, d] (some [c, d]) = .ok [p.weight1 [c, d, a, b], p.weight1 [a, b, c, d]] := by
    simp [CausalConv3d.forward, Projection.conv1, replicatePad, slide, windowCount, List.range_succ]
  change ((Py.ofExcept (p.conv1.forward [a, b, c, d] (some [c, d])) >>= fun x => do
    let x := x.map p.act1
    let c ← selfCache
    setCache { c with conv2 := some (x.rtake CACHE_T) }
    pure x).run ⟨some { cache with conv1 := some [c, d] }, n⟩) = _
  rw [hforward]
  exact rfl

theorem second_run {x : List S} (c1 : Option (List S)) (n : ℕ) :
    (p.second (p.inner x)).run ⟨some ⟨c1, some (p.inner x)⟩, n⟩ = (.ok [p.code x], ⟨some ⟨c1, some (p.inner x)⟩, n⟩) := by
  have hforward : p.conv2.forward (p.inner x) (some (p.inner x)) = .ok [p.weight2 (p.inner x ++ p.inner x)] := by
    simp [CausalConv3d.forward, Projection.conv2, Projection.inner, replicatePad, slide, windowCount, List.range_succ]
  change ((Py.ofExcept (p.conv2.forward (p.inner x) (some (p.inner x))) >>= fun x => pure (x.map p.act2)).run _) = _
  rw [hforward]
  exact rfl

end Chunk

/-! ## Chunk by chunk -/

/-- the loop rule: what the iterations append, if each of them keeps what the next one needs -/
theorem appends_run {σ β : Type} {body : ℕ → Py σ (Option β)} {P : σ → Prop} {r : ℕ → Option β} {n : ℕ}
    (hbody : ∀ i < n, ∀ s, P s → ∃ s', (body i).run s = (.ok (r i), s') ∧ P s') {s : σ} (hs : P s) :
    ∃ s', (appends body n).run s = (.ok ((List.range n).flatMap fun i => (r i).toList), s') ∧ P s' := by
  induction n with
  | zero => exact ⟨s, rfl, hs⟩
  | succ n ih =>
    obtain ⟨s', hrun, hs'⟩ := ih fun i hi => hbody i (Nat.lt_succ_of_lt hi)
    obtain ⟨s'', hlast, hs''⟩ := hbody n (Nat.lt_succ_self n) s' hs'
    refine ⟨s'', ?_, hs''⟩
    rw [appends, Py.run_bind_ok hrun, Py.run_bind_ok hlast, Py.run_pure, List.range_succ, List.flatMap_append,
      List.flatMap_singleton]

/-- the frames of chunk i: the first one four times, then 4 each -/
def seenFrames {F : Type} (video : List F) (i : ℕ) : List F :=
  if i = 0 then (video.take 1).flatMap (List.replicate 4) else Vae.WanVAE.encodeChunk video i

theorem lead_chunk {F : Type} {video : List F} (hne : video ≠ []) (i : ℕ) :
    ((lead video).drop (i * 4)).take 4 = seenFrames video i := by
  obtain ⟨a, rest, rfl⟩ := List.exists_cons_of_ne_nil hne
  cases i with
  | zero => rfl
  | succ i =>
    have hlead : lead (a :: rest) = [a, a, a] ++ a :: rest := rfl
    have hpast : ([a, a, a] : List F).drop ((i + 1) * 4) = [] := List.drop_eq_nil_of_le (by simp; omega)
    have hplace : (i + 1) * 4 - ([a, a, a] : List F).length = 1 + 4 * (i + 1 - 1) := by simp; omega
    rw [hlead, List.drop_append, hpast, List.nil_append, hplace, seenFrames, if_neg (Nat.succ_ne_zero i),
      Vae.WanVAE.encodeChunk, if_neg (Nat.succ_ne_zero i)]

theorem seenFrames_length {F : Type} {video : List F} (hne : video ≠ []) {i : ℕ} (hi : i < (video.length - 1) / 4 + 1) :
    (seenFrames video i).length = 4 := by
  have hpos := List.length_pos_iff.2 hne
  rw [seenFrames]
  split_ifs with h0
  · obtain ⟨a, rest, rfl⟩ := List.exists_cons_of_ne_nil hne
    rfl
  · rw [Vae.WanVAE.encodeChunk, if_neg h0, List.length_take, List.length_drop]
    omega

section Forward

variable {hh ww : ℕ} (p : Projection (Picture α (c * (hh * ww)) (H / hh) (W / ww)) V₁ V₂)

/-- the latent of the frames of a chunk -/
def latent (x : List (Picture α c H W)) : V₂ := p.code (x.map (shuffled hh ww))

theorem chunk_eq {video : List (Picture α c H W)} (hne : video ≠ []) (i : ℕ) :
    chunk hh ww video i = pixelShuffle hh ww (seenFrames video i) := by
  rw [chunk, lead_chunk hne]

/-- 4 frames on their way through `conv1` -/
theorem shuffled_first_run (hsize : H % hh = 0 ∧ W % ww = 0) {x : List (Picture α c H W)} (hx : x.length = 4)
    (cache : Cache (Picture α (c * (hh * ww)) (H / hh) (W / ww)) V₁) (n : ℕ) {β : Type}
    (f : List V₁ → Py (State (Picture α (c * (hh * ww)) (H / hh) (W / ww)) V₁) β) :
    (Py.ofExcept (pixelShuffle hh ww x) >>= fun x => p.first x >>= f).run ⟨some cache, n⟩ =
      (f (p.inner (x.map (shuffled hh ww)))).run
        ⟨some ⟨some ((x.map (shuffled hh ww)).drop 2), some (p.inner (x.map (shuffled hh ww)))⟩, n⟩ := by
  have hfour : (x.map (shuffled hh ww)).length = 4 := by rw [List.length_map, hx]
  rw [pixelShuffle, if_pos hsize, Py.run_bind_ofExcept]
  exact Py.run_bind_ok (first_run p hfour cache n) f

theorem iters_eq {F : Type} {video : List F} (hne : video ≠ []) : iters video = (video.length - 1) / 4 + 1 :=
  Vae.iters_eq (List.length_pos_iff.2 hne)

theorem catAll_single {β : Type} {n : ℕ} (hn : 0 < n) (f : ℕ → β) :
    catAll ((List.range n).map fun i => [f i]) = .ok ((List.range n).map f) := by
  have hne : (List.range n).map (fun i => [f i]) ≠ [] := List.length_pos_iff.1 (by simpa using hn)
  rw [catAll, if_neg hne]
  exact congrArg Except.ok (List.flatMap_def.symm.trans List.map_eq_flatMap.symm)

/-- **A clip.** Whatever the caches held, each chunk gives a latent of its own. -/
theorem forward_ok (hsize : H % hh = 0 ∧ W % ww = 0) {video : List (Picture α c H W)} (hne : video ≠ [])
    (s : State (Picture α (c * (hh * ww)) (H / hh) (W / ww)) V₁) :
    ((LQProj.forward p video).run s).1 =
      .ok ((List.range ((video.length - 1) / 4 + 1)).map fun i => latent p (seenFrames video i)) := by
  have hbody : ∀ i < (video.length - 1) / 4 + 1, ∀ s : State (Picture α (c * (hh * ww)) (H / hh) (W / ww)) V₁,
      (∃ cache n, s = ⟨some cache, n⟩) → ∃ s', (Py.ofExcept (chunk hh ww video i) >>= fun x => p.first x >>= fun x =>
        p.second x >>= fun x => pure (some x)).run s = (.ok (some [latent p (seenFrames video i)]), s') ∧
          ∃ cache n, s' = ⟨some cache, n⟩ := by
    rintro i hi s ⟨cache, n, rfl⟩
    rw [chunk_eq hne, shuffled_first_run p hsize (seenFrames_length hne hi)]
    exact ⟨_, Py.run_bind_ok (second_run p _ n) _, _, _, rfl⟩
  obtain ⟨s', hrun, -⟩ := appends_run hbody ⟨⟨none, none⟩, 0, rfl⟩
  have hlist : ((List.range ((video.length - 1) / 4 + 1)).flatMap fun i => (some [latent p (seenFrames video i)]).toList) =
      (List.range ((video.length - 1) / 4 + 1)).map fun i => [latent p (seenFrames video i)] := List.map_eq_flatMap.symm
  rw [LQProj.forward, clearCache, Py.run_bind_modify, iters_eq hne, Py.run_bind_ok hrun, hlist]
  exact catAll_single (Nat.succ_pos _) _

end Forward

/-! ## Windows of 5 frames -/

section Windows

open Vae Tiled

theorem map_range_pairs {β : Type} (g : ℕ → β) (k : ℕ) :
    ((List.range k).flatMap fun i => (List.range 2).map fun j => g (i * 2 + j)) = (List.range (k * 2)).map g := by
  induction k with
  | zero => rfl
  | succ k ih =>
    rw [@List.range_succ k, List.flatMap_append, ih, Nat.succ_mul, List.range_add, List.map_append, List.map_map,
      List.flatMap_singleton]
    rfl

/-- chunk j of a window: the frames that latent i * 2 + j of a mask stands for, channel by channel -/
theorem seenFrames_window {F : Type} {clip : List F} {k i j : ℕ} (hlen : clip.length = k * 5) (hi : i < k) (hj : j < 2) :
    seenFrames (window 5 clip i) j = (List.range 4).filterMap fun c => clip[maskFrame (i * 2 + j) c]? := by
  have hfive : (window 5 clip i).length = 5 := window_length hlen hi
  have hget : ∀ n < 5, clip[i * 5 + n]? = (window 5 clip i)[n]? := by
    intro n hn
    rw [window, List.getElem?_take_of_lt hn, List.getElem?_drop]
  have hframe : ∀ c < 4, clip[maskFrame (i * 2 + j) c]? = (window 5 clip i)[codedFrame j c]? := by
    intro c hc
    have hplace : maskFrame (i * 2 + j) c = i * 5 + codedFrame j c := by
      rw [maskFrame, show (i * 2 + j) / 2 = i by omega, show (i * 2 + j) % 2 = j by omega]
    rw [hplace, hget]
    rw [codedFrame]
    split_ifs <;> omega
  rw [List.filterMap_congr fun c hc => hframe c (List.mem_range.1 hc)]
  generalize window 5 clip i = w at hfive
  obtain ⟨a, rest, rfl⟩ := List.exists_cons_of_length_pos (by omega : 0 < w.length)
  obtain ⟨b, c, d, e, rfl⟩ := List.length_eq_four.1 (Nat.succ.inj hfive)
  obtain rfl | rfl : j = 0 ∨ j = 1 := by omega
  · rfl
  · rfl

variable {hh ww : ℕ} (p : Projection (Picture α (c * (hh * ww)) (H / hh) (W / ww)) V₁ V₂)

/-- **The latents of a clip.** Frames have pixels, as the padding asks. Whatever the batch size and the caches, a clip of 5 k
frames has 2 k latents, as many as its mask has; each is made of the frames that the four channels of the mask stand for
there, and of no others. -/
theorem lq_latents (hsize : (0 < H ∧ 0 < W) ∧ H % hh = 0 ∧ W % ww = 0) {batchSize k : ℕ} (hb : 0 < batchSize)
    {x : List (List (Picture α c H W))} (hne : x ≠ []) (hlen : ∀ clip ∈ x, clip.length = k * 5)
    (s : State (Picture α (c * (hh * ww)) (H / hh) (W / ww)) V₁) :
    LQProjSpatialTiledEncoder3D.encodeTile p batchSize s x = .ok (x.map fun clip =>
      (List.range (k * 2)).map fun t => latent p ((List.range 4).filterMap fun ch => clip[maskFrame t ch]?)) := by
  have hmodel : ∀ batch : List (List (Picture α c H W)), (∀ w ∈ batch, ∃ clip ∈ x, ∃ i < k, w = window 5 clip i) →
      (batch.mapM fun clip => ((LQProj.forward p clip).run s).1) =
        .ok (batch.map fun w => (List.range 2).map fun j => latent p (seenFrames w j)) := by
    refine fun batch hbatch => mapM_ok fun w hw => ?_
    obtain ⟨clip, hclip, i, hi, rfl⟩ := hbatch w hw
    have hfive : (window 5 clip i).length = 5 := window_length (hlen clip hclip) hi
    rw [forward_ok p hsize.2 (List.length_pos_iff.1 (by omega)) s, hfive]
  rw [LQProjSpatialTiledEncoder3D.encodeTile, throughWindows_ok (by decide) hb hne hlen hmodel]
  refine congrArg Except.ok (List.map_congr_left ?_)
  intro clip hclip
  rw [← map_range_pairs]
  refine congrArg List.flatten (List.map_congr_left fun i hi => List.map_congr_left ?_)
  intro j hj
  rw [seenFrames_window (hlen clip hclip) (List.mem_range.1 hi) (List.mem_range.1 hj)]

/-- frames of 2 by 2 pixels, of which the last one is added up -/
def lastPixels : Projection (Picture ℕ (1 * (2 * 2)) (2 / 2) (2 / 2)) ℕ ℕ where
  weight1 x := (x.map fun f => f ⟨3, by decide⟩ ⟨0, by decide⟩ ⟨0, by decide⟩).sum
  act1 n := n
  weight2 := List.sum
  act2 n := n

/-- frame n has n at its last pixel -/
def numbered (n : ℕ) : List (Picture ℕ 1 2 2) := (List.range n).map fun n _ i j => if i.val = 1 ∧ j.val = 1 then n else 0

/-- each frame of a latent counts four times -/
theorem lq_latents_tenFrames :
    LQProjSpatialTiledEncoder3D.encodeTile lastPixels 2 ⟨none, 0⟩ [numbered 10] = .ok [[0, 40, 80, 120]] :=
  (lq_latents (c := 1) (H := 2) (W := 2) lastPixels (by decide) (k := 2) (by decide) (by decide) (by decide) _).trans (by rfl)

end Windows

/-! ## Clip after clip -/

section Stream

open Vae

variable {T O : Type} {hh ww : ℕ} (p : Buffer (Picture α (c * (hh * ww)) (H / hh) (W / ww)) V₁ V₂ T O)

/-- the outputs are those of the latents one by one, layer by layer -/
theorem outputs_joins {S : Type} (p : Buffer S V₁ V₂ T O) (outX : List V₂) :
    p.outputs outX = (List.range p.linearLayers.length).map fun l =>
      (outX.map fun x => p.outputs [x]).flatMap fun out => out.getD l [] := by
  refine List.ext_getElem (by simp [Buffer.outputs]) ?_
  intro l hl _
  have hlayer : l < p.linearLayers.length := by simpa [Buffer.outputs] using hl
  simp [Buffer.outputs, List.flatMap_map, List.map_flatMap, List.getD_eq_getElem?_getD, hlayer]

/-- the clip before the stream starts is only the first chunk -/
theorem streamForward_first (hsize : H % hh = 0 ∧ W % ww = 0) (a : Picture α c H W)
    (cache : Cache (Picture α (c * (hh * ww)) (H / hh) (W / ww)) V₁) :
    ∃ cache', (p.streamForward [a]).run ⟨some cache, 0⟩ = (.ok none, ⟨some cache', 1⟩) :=
  ⟨_, shuffled_first_run p.toProjection hsize (x := lead [a]) rfl cache 0 _⟩

/-- a later clip of 4 frames is a latent -/
theorem streamForward_next (hsize : H % hh = 0 ∧ W % ww = 0) {x : List (Picture α c H W)} (hx : x.length = 4)
    (cache : Cache (Picture α (c * (hh * ww)) (H / hh) (W / ww)) V₁) (n : ℕ) :
    ∃ cache', (p.streamForward x).run ⟨some cache, n + 1⟩ =
      (.ok (some (p.outputs [latent p.toProjection x])), ⟨some cache', n + 2⟩) :=
  ⟨_, (shuffled_first_run p.toProjection hsize hx cache (n + 1) _).trans (Py.run_bind_ok (second_run p.toProjection _ _) _)⟩

theorem streams_run (hsize : H % hh = 0 ∧ W % ww = 0) {clips : List (List (Picture α c H W))}
    (hclips : ∀ x ∈ clips, x.length = 4)
    (cache : Cache (Picture α (c * (hh * ww)) (H / hh) (W / ww)) V₁) (n : ℕ) :
    ∃ s', (p.streams clips).run ⟨some cache, n + 1⟩ =
      (.ok (clips.map fun x => some (p.outputs [latent p.toProjection x])), s') := by
  induction clips generalizing cache n with
  | nil => exact ⟨_, rfl⟩
  | cons x clips ih =>
    obtain ⟨cache', hrun⟩ := streamForward_next p hsize (hclips x List.mem_cons_self) cache n
    obtain ⟨s', hrest⟩ := ih (fun y hy => hclips y (List.mem_cons_of_mem x hy)) cache' (n + 1)
    exact ⟨s', (Py.run_bind_ok hrun _).trans (Py.run_bind_ok hrest _)⟩

/-- what `forward` appends: nothing in the first iteration, then a latent in each -/
theorem forward_appends (hsize : H % hh = 0 ∧ W % ww = 0) {video : List (Picture α c H W)} (hne : video ≠ [])
    (s : State (Picture α (c * (hh * ww)) (H / hh) (W / ww)) V₁) :
    ((p.forward video).run s).1 = (catAll ((List.range ((video.length - 1) / 4)).map fun i =>
      [latent p.toProjection (WanVAE.encodeChunk video (i + 1))]) >>= fun outX => .ok (p.outputs outX)) := by
  have hbody : ∀ i < (video.length - 1) / 4 + 1, ∀ s : State (Picture α (c * (hh * ww)) (H / hh) (W / ww)) V₁,
      (∃ cache n, s = ⟨some cache, n⟩) → ∃ s', (Py.ofExcept (chunk hh ww video i) >>= fun x => p.first x >>= fun x =>
        if i = 0 then pure none else p.second x >>= fun x => pure (some x)).run s =
          (.ok (if i = 0 then none else some [latent p.toProjection (WanVAE.encodeChunk video i)]), s') ∧
            ∃ cache n, s' = ⟨some cache, n⟩ := by
    rintro i hi s ⟨cache, n, rfl⟩
    rw [chunk_eq hne, shuffled_first_run p.toProjection hsize (seenFrames_length hne hi)]
    by_cases h0 : i = 0
    · rw [if_pos h0, if_pos h0, Py.run_pure]
      exact ⟨_, rfl, _, _, rfl⟩
    · rw [if_neg h0, if_neg h0, seenFrames, if_neg h0]
      exact ⟨_, Py.run_bind_ok (second_run p.toProjection _ n) _, _, _, rfl⟩
  obtain ⟨s', hrun, -⟩ := appends_run hbody ⟨⟨none, none⟩, 0, rfl⟩
  have hlist : ((List.range ((video.length - 1) / 4 + 1)).flatMap fun i =>
      (if i = 0 then none else some [latent p.toProjection (WanVAE.encodeChunk video i)]).toList) =
        (List.range ((video.length - 1) / 4)).map fun i => [latent p.toProjection (WanVAE.encodeChunk video (i + 1))] := by
    rw [List.range_succ_eq_map, List.flatMap_cons, List.flatMap_map]
    exact List.map_eq_flatMap.symm
  rw [Buffer.forward, clearCache, Py.run_bind_modify, iters_eq hne, Py.run_bind_ok hrun, hlist, Py.run_bind_ofExcept]
  cases catAll ((List.range ((video.length - 1) / 4)).map fun i =>
    [latent p.toProjection (WanVAE.encodeChunk video (i + 1))]) with
  | ok outX => rfl
  | error e => rfl

/-- **A stream.** Frames have pixels, as the padding asks. After `clear_cache`, a video may come in clips, first its first frame
and then 4 frames at a time. The first call gives nothing; each further one has outputs, and layer by layer they are,
together, what `forward` gives for the whole video. Of a video of less than 5 frames there are none, and there `forward`
raises. -/
theorem stream_forward_joins (hsize : (0 < H ∧ 0 < W) ∧ H % hh = 0 ∧ W % ww = 0) {video : List (Picture α c H W)}
    (hne : video ≠ []) (s s' : State (Picture α (c * (hh * ww)) (H / hh) (W / ww)) V₁) :
    ∃ outs : List (List (List O)), outs.length = (video.length - 1) / 4 ∧
      ((clearCache >>= fun _ => p.streams ((List.range ((video.length - 1) / 4 + 1)).map (WanVAE.encodeChunk video))).run s).1 =
        .ok (none :: outs.map some) ∧
      ((p.forward video).run s').1 =
        if outs = [] then .error ⟨.runtimeError, "torch.cat(): expected a non-empty list of Tensors"⟩
        else .ok ((List.range p.linearLayers.length).map fun l => outs.flatMap fun out => out.getD l []) := by
  set n := (video.length - 1) / 4 with hn
  have hclips : ∀ x ∈ (List.range n).map fun i => WanVAE.encodeChunk video (i + 1), x.length = 4 := by
    intro x hx
    obtain ⟨i, hi, rfl⟩ := List.mem_map.1 hx
    have hlt := List.mem_range.1 hi
    have hfour := seenFrames_length hne (i := i + 1) (by omega)
    rwa [seenFrames, if_neg (Nat.succ_ne_zero i)] at hfour
  refine ⟨(List.range n).map fun i => p.outputs [latent p.toProjection (WanVAE.encodeChunk video (i + 1))], ?_, ?_, ?_⟩
  · rw [List.length_map, List.length_range]
  · obtain ⟨a, rest, rfl⟩ := List.exists_cons_of_ne_nil hne
    obtain ⟨cache, hfirst⟩ := streamForward_first p hsize.2 a ⟨none, none⟩
    obtain ⟨s', hrest⟩ := streams_run p hsize.2 hclips cache 0
    rw [List.range_succ_eq_map, List.map_cons, List.map_map, clearCache, Py.run_bind_modify, Buffer.streams]
    refine (congrArg Prod.fst ((Py.run_bind_ok hfirst _).trans (Py.run_bind_ok hrest _))).trans ?_
    rw [Py.run_pure, List.map_map, List.map_map]
    rfl
  · rw [forward_appends p hsize.2 hne]
    rcases Nat.eq_zero_or_pos n with h0 | hpos
    · rw [← hn, h0]
      rfl
    · have houts : ((List.range n).map fun i => p.outputs [latent p.toProjection (WanVAE.encodeChunk video (i + 1))]) ≠ [] :=
        List.length_pos_iff.1 (by simpa using hpos)
      rw [← hn, catAll_single hpos, if_neg houts, ok_bind, outputs_joins, List.map_map]
      rfl

/-- a layer that adds 1 and one that doubles -/
def twoLayers : Buffer (Picture ℕ (1 * (2 * 2)) (2 / 2) (2 / 2)) ℕ ℕ ℕ ℕ where
  toProjection := lastPixels
  tokens x := [x]
  linearLayers := [Nat.succ, fun x => 2 * x]

/-- a layer's values for 11 frames, the last two of which are in no clip -/
theorem stream_forward_joins_elevenFrames :
    ∃ outs : List (List (List ℕ)), outs.length = 2 ∧
      ((clearCache >>= fun _ => twoLayers.streams ((List.range 3).map (WanVAE.encodeChunk (numbered 11)))).run ⟨none, 0⟩).1 =
        .ok (none :: outs.map some) ∧
      ((twoLayers.forward (numbered 11)).run ⟨none, 0⟩).1 =
        .ok ((List.range 2).map fun l => outs.flatMap fun out => out.getD l []) := by
  obtain ⟨outs, hlen, hstream, hforward⟩ := stream_forward_joins (c := 1) (H := 2) (W := 2) twoLayers (by decide)
    (by decide : numbered 11 ≠ []) ⟨none, 0⟩ ⟨none, 0⟩
  have hne : outs ≠ [] := List.length_pos_iff.1 (hlen ▸ by decide)
  exact ⟨outs, hlen, hstream, hforward.trans (if_neg hne)⟩

end Stream

end Viduce.Utils
