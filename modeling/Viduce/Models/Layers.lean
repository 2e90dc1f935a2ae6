/-
The layers of the causal video autoencoder (`models/vae2_1.py`): residual blocks, attention blocks and resampling, with the
cache that carries them from one chunk of frames to the next, and without it.

- `ResidualBlock.streams`, `Resample.up_streams`, `Resample.down_streams`: with its cache, a layer gives chunk by chunk
  what it gives on the whole clip, in as many frames and of the size that its mode says.
- `doubleTime_streams`, `halveTime_streams`: the time axis of the two modes that change it.
-/
import Mathlib.Tactic
import Viduce.Models.CausalConv

namespace Viduce.Vae

open Viduce.Streaming
open Feature

variable {F : Type} [Feature F]

/-! ## Layers -/

/-- the learned functions of a layer, of whatever kind and sizes the constructor asks for -/
structure LayerWeights (F : Type) [Feature F] where
  /-- `RMS_norm` and `SiLU`, number by number -/
  norm : ℕ → (c : ℕ) → FrameFn F c c 0 id
  conv : ℕ → (i o k : ℕ) → Kernel F i o k
  attention : (c : ℕ) → FrameFn F c c 0 id
  /-- twice the size, half the channels -/
  upsample : (c : ℕ) → FrameFn F c (c / 2) 1 (2 * ·)
  /-- padded by a row and a column, then every second one -/
  downsample : (c : ℕ) → FrameFn F c c 2 (· / 2)

structure ResidualBlock (F : Type) [Feature F] where
  residual : List (Sublayer F)
  /-- none is `nn.Identity()` -/
  shortcut : Option (CausalConv3d F)

namespace ResidualBlock

def init (weights : LayerWeights F) (inDim outDim : ℕ) : ResidualBlock F where
  residual :=
    [.frameFn (weights.norm 0 inDim), .causalConv ⟨inDim, outDim, 3, 1, 1, weights.conv 0 inDim outDim 3⟩,
      .frameFn (weights.norm 1 outDim), .causalConv ⟨outDim, outDim, 3, 1, 1, weights.conv 1 outDim outDim 3⟩]
  shortcut := if inDim ≠ outDim then some ⟨inDim, outDim, 1, 1, 0, weights.conv 2 inDim outDim 1⟩ else none

/-- `self.shortcut(x)` -/
def shortcutForward (b : ResidualBlock F) (x : List F) : Except PyErr (List F) :=
  match b.shortcut with
  | some conv => conv.forward x none
  | none => .ok x

/-- `forward` with a cache -/
def cached (b : ResidualBlock F) (x : List F) : Py (Slots (CacheItem F)) (List F) := do
  let h ← Py.ofExcept (b.shortcutForward x)
  let x ← chain (b.residual.map Sublayer.cached) x
  Py.ofExcept (addFrames x h)

/-- `forward` without a cache -/
def plain (b : ResidualBlock F) (x : List F) : Except PyErr (List F) := do
  let h ← b.shortcutForward x
  let x ← plainAll (b.residual.map Sublayer.plain) x
  addFrames x h

/-- the shortcut on one frame -/
def shortcutFrame (b : ResidualBlock F) (x : F) : F :=
  match b.shortcut with
  | some conv => conv.weight.apply [x]
  | none => x

def whole (b : ResidualBlock F) (x : List F) : List F :=
  (wholeAll (b.residual.map Sublayer.whole) x).zipWith add (x.map b.shortcutFrame)

variable (weights : LayerWeights F) (inDim outDim : ℕ)

theorem dim_shortcutFrame {x : F} {h w : ℕ} (hx : dim x = ⟨inDim, h, w⟩) :
    dim ((init weights inDim outDim).shortcutFrame x) = ⟨outDim, h, w⟩ := by
  unfold shortcutFrame init
  by_cases hdim : inDim = outDim
  · simpa [hdim] using hx.trans (by rw [hdim])
  · simp only [ne_eq, hdim, not_false_eq_true, if_true]
    exact (weights.conv 2 inDim outDim 1).dim_apply [x] h w (by simp) rfl (by simpa using hx)

/-- the shortcut takes each frame by itself -/
theorem shortcutForward_ok {x : List F} {h w : ℕ} (hne : x ≠ []) (hx : ∀ a ∈ x, dim a = ⟨inDim, h, w⟩) :
    (init weights inDim outDim).shortcutForward x = .ok (x.map (init weights inDim outDim).shortcutFrame) := by
  unfold shortcutForward shortcutFrame init
  by_cases hdim : inDim = outDim
  · simp [hdim]
  · simp only [ne_eq, hdim, not_false_eq_true, if_true]
    exact CausalConv3d.forward_single ⟨rfl, rfl, rfl⟩ hx hne

/-- with its cache, a residual block gives chunk by chunk what it gives on the whole clip -/
theorem streams {m : ℕ} (hm : 0 < m) (h w : ℕ) :
    Streams (init weights inDim outDim).cached 2 (fun a => dim a = ⟨inDim, h, w⟩) (fun a => dim a = ⟨outDim, h, w⟩) m m
      (init weights inDim outDim).whole := by
  have hconv₀ := CausalConv3d.streams (CausalConv3d.causal_mk (weights.conv 0 inDim outDim 3)) hm h w
  have hconv₁ := CausalConv3d.streams (CausalConv3d.causal_mk (weights.conv 1 outDim outDim 3)) hm h w
  have hnorm₀ := (weights.norm 0 inDim).streams (κ := CacheItem F) (Nat.zero_le h) (Nat.zero_le w) m
  have hnorm₁ := (weights.norm 1 outDim).streams (κ := CacheItem F) (Nat.zero_le h) (Nat.zero_le w) m
  have hbody : Streams (chain ((init weights inDim outDim).residual.map Sublayer.cached)) 2
      (fun a => dim a = ⟨inDim, h, w⟩) (fun a => dim a = ⟨outDim, h, w⟩) m m
      (wholeAll ((init weights inDim outDim).residual.map Sublayer.whole)) :=
    hnorm₀.chain_cons (hconv₀.chain_cons (hnorm₁.chain_cons (hconv₁.chain_cons (Streams.chain_nil _ m))))
  refine Streams.add hm hbody (fun x hne hx => shortcutForward_ok weights inDim outDim hne hx)
    (fun a ha => dim_shortcutFrame weights inDim outDim ha) (fun y h hy hh hlen => addFrames_ok hy hh hlen) ?_
  intro a b ha hb
  rw [dim_add a b (ha.trans hb.symm), ha]

/-- without a cache, it gives what it gives on the whole clip -/
theorem plain_ok {x : List F} {h w : ℕ} (hne : x ≠ []) (hx : ∀ a ∈ x, dim a = ⟨inDim, h, w⟩) :
    (init weights inDim outDim).plain x = .ok ((init weights inDim outDim).whole x) ∧
      (∀ y ∈ (init weights inDim outDim).whole x, dim y = ⟨outDim, h, w⟩) ∧
      ((init weights inDim outDim).whole x).length = x.length := by
  set conv₀ : CausalConv3d F := ⟨inDim, outDim, 3, 1, 1, weights.conv 0 inDim outDim 3⟩ with hconv₀
  set conv₁ : CausalConv3d F := ⟨outDim, outDim, 3, 1, 1, weights.conv 1 outDim outDim 3⟩ with hconv₁
  have hc₀ : conv₀.Causal := ⟨rfl, rfl, rfl⟩
  have hc₁ : conv₁.Causal := ⟨rfl, rfl, rfl⟩
  -- one module after the other
  have h₀ := (weights.norm 0 inDim).dim_map (Nat.zero_le h) (Nat.zero_le w) hx
  have h₁ := CausalConv3d.dim_whole hc₀ h₀
  have h₂ := (weights.norm 1 outDim).dim_map (Nat.zero_le h) (Nat.zero_le w) h₁
  have h₃ := CausalConv3d.dim_whole hc₁ h₂
  have hlen₀ := CausalConv3d.length_whole hc₀ h₀
  have hlen₁ := CausalConv3d.length_whole hc₁ h₂
  rw [List.length_map] at hlen₀ hlen₁
  have hlen : (conv₁.whole ((conv₀.whole (x.map (weights.norm 0 inDim).apply)).map (weights.norm 1 outDim).apply)).length =
      (x.map (init weights inDim outDim).shortcutFrame).length := by
    rw [hlen₁, hlen₀, List.length_map]
  have hne₁ : (conv₀.whole (x.map (weights.norm 0 inDim).apply)).map (weights.norm 1 outDim).apply ≠ [] := by
    rw [← List.length_pos_iff, List.length_map, hlen₀]
    exact List.length_pos_iff.2 hne
  have hshort : ∀ b ∈ x.map (init weights inDim outDim).shortcutFrame, dim b = ⟨outDim, h, w⟩ := by
    intro b hb
    obtain ⟨a, ha, rfl⟩ := List.mem_map.1 hb
    exact dim_shortcutFrame weights inDim outDim (hx a ha)
  have hbody : plainAll ((init weights inDim outDim).residual.map Sublayer.plain) x =
      .ok (conv₁.whole ((conv₀.whole (x.map (weights.norm 0 inDim).apply)).map (weights.norm 1 outDim).apply)) := by
    simp only [init, plainAll, List.map_cons, List.map_nil, List.foldlM_cons, List.foldlM_nil, Sublayer.plain]
    rw [(weights.norm 0 inDim).forward_ok (Nat.zero_le h) (Nat.zero_le w) hx, ok_bind,
      CausalConv3d.forward_whole hc₀ h₀ (by simpa using hne), ok_bind,
      (weights.norm 1 outDim).forward_ok (Nat.zero_le h) (Nat.zero_le w) h₁, ok_bind,
      CausalConv3d.forward_whole hc₁ h₂ hne₁, ok_bind]
    rfl
  refine ⟨?_, dim_zipWith h₃ hshort, ?_⟩
  · rw [plain, shortcutForward_ok weights inDim outDim hne hx, ok_bind, hbody, ok_bind, addFrames_ok h₃ hshort hlen]
    rfl
  · unfold whole
    rw [List.length_zipWith]
    refine (congrArg₂ min hlen rfl).trans ?_
    rw [Nat.min_self, List.length_map]

end ResidualBlock

/-! ### Resampling -/

inductive Mode where
  | none
  | upsample2d
  | upsample3d
  | downsample2d
  | downsample3d
deriving DecidableEq, Repr

/-- c channels go in -/
inductive Resample (F : Type) [Feature F] where
  /-- `nn.Identity()` -/
  | identity
  | upsample2d (c : ℕ) (resample : FrameFn F c (c / 2) 1 (2 * ·))
  | upsample3d (c : ℕ) (resample : FrameFn F c (c / 2) 1 (2 * ·)) (timeConv : CausalConv3d F)
  | downsample2d (c : ℕ) (resample : FrameFn F c c 2 (· / 2))
  | downsample3d (c : ℕ) (resample : FrameFn F c c 2 (· / 2)) (timeConv : CausalConv3d F)

/-- the two halves of the channels of a frame, as two frames -/
def unfoldTime (a : F) : List F := [(halves a).1, (halves a).2]

/-- `cache_x` in the branch for 'upsample3d' -/
def doublingCache (c : CacheItem F) (x : List F) : Except PyErr (List F) :=
  let cacheX := x.rtake CACHE_T
  if cacheX.length < 2 then
    match c with
    | .rep => cat (cacheX.map fun a => zeros (dim a)) cacheX
    | .frames prev => catLast prev cacheX
  else .ok cacheX

/-- the branch for 'upsample3d': nothing happens to the first chunk, and later frames become two each -/
def doubleTime (timeConv : CausalConv3d F) (c : Option (CacheItem F)) (x : List F) : Except PyErr (List F × CacheItem F) :=
  match c with
  | none => .ok (x, .rep)
  | some c => do
    let cacheX ← doublingCache c x
    let x ← match c with
      | .rep => timeConv.forward x none
      | .frames prev => timeConv.forward x (some prev)
    pure (x.flatMap unfoldTime, .frames cacheX)

/-- the branch for 'downsample3d': nothing happens to the first chunk, and later pairs of frames become one each -/
def halveTime (timeConv : CausalConv3d F) (c : Option (CacheItem F)) (x : List F) : Except PyErr (List F × CacheItem F) :=
  match c with
  | none => .ok (x, .frames x)
  | some .rep => .error ⟨.other, "string indices must be integers"⟩
  | some (.frames prev) => do
    let joined ← cat (prev.rtake 1) x
    let y ← timeConv.forward joined none
    pure (y, .frames (x.rtake 1))

namespace Resample

def init (weights : LayerWeights F) (c : ℕ) : Mode → Resample F
  | .none => identity
  | .upsample2d => upsample2d c (weights.upsample c)
  | .upsample3d => upsample3d c (weights.upsample c) ⟨c, 2 * c, 3, 1, 1, weights.conv 0 c (2 * c) 3⟩
  | .downsample2d => downsample2d c (weights.downsample c)
  | .downsample3d => downsample3d c (weights.downsample c) ⟨c, c, 3, 2, 0, weights.conv 0 c c 3⟩

/-- `self.resample` on each frame -/
def spatial : Resample F → List F → Except PyErr (List F)
  | identity, x => .ok x
  | upsample2d _ resample, x | upsample3d _ resample _, x => resample.forward x
  | downsample2d _ resample, x | downsample3d _ resample _, x => resample.forward x

/-- `forward` with a cache -/
def cached (r : Resample F) (x : List F) : Py (Slots (CacheItem F)) (List F) :=
  match r with
  | upsample3d _ _ timeConv => do
    let x ← useSlot (doubleTime timeConv) x
    Py.ofExcept (r.spatial x)
  | downsample3d _ _ timeConv => do
    let x ← Py.ofExcept (r.spatial x)
    useSlot (halveTime timeConv) x
  | _ => Py.ofExcept (r.spatial x)

/-- `forward` without a cache: time stays as it is, in every mode -/
def plain (r : Resample F) (x : List F) : Except PyErr (List F) := r.spatial x

/-- `self.resample` on one frame -/
def frame : Resample F → F → F
  | identity => id
  | upsample2d _ resample | upsample3d _ resample _ => resample.apply
  | downsample2d _ resample | downsample3d _ resample _ => resample.apply

/-- two frames for every frame but the first -/
def doubled (timeConv : CausalConv3d F) : List F → List F
  | [] => []
  | a :: rest => a :: (timeConv.whole rest).flatMap unfoldTime

/-- the first frame, then one for each two -/
def halved (timeConv : CausalConv3d F) : List F → List F
  | [] => []
  | a :: rest => a :: timeConv.whole (a :: rest)

def whole (r : Resample F) (x : List F) : List F :=
  match r with
  | upsample3d _ _ timeConv => (doubled timeConv x).map r.frame
  | downsample3d _ _ timeConv => halved timeConv (x.map r.frame)
  | _ => x.map r.frame

/-! #### Doubling -/

/-- what the slot holds after a past: nothing, the string 'Rep', or the last of a blank frame and the later frames -/
def heldDoubling (z : F) : List F → Option (CacheItem F)
  | [] => none
  | [_] => some .rep
  | _ :: b :: rest => some (.frames ((z :: b :: rest).rtake CACHE_T))

omit [Feature F] in
/-- the frames the next chunk is put after, with padding where they are too few -/
theorem padded_rtake (z b : F) (rest : List F) :
    List.replicate (2 - ((b :: rest).rtake CACHE_T).length) z ++ (b :: rest).rtake CACHE_T =
      (z :: b :: rest).rtake CACHE_T := by
  cases rest with
  | nil => rfl
  | cons c rest =>
    have hlong : CACHE_T ≤ (b :: c :: rest).length := by simp [CACHE_T]
    have hfull : 2 - ((b :: c :: rest).rtake CACHE_T).length = 0 := by
      rw [length_rtake]
      unfold CACHE_T at hlong ⊢
      omega
    rw [hfull, ← List.singleton_append (l := b :: c :: rest) (x := z), rtake_of_long hlong]
    rfl

theorem dim_unfoldTime {a : F} {c h w : ℕ} (ha : dim a = ⟨2 * c, h, w⟩) : ∀ y ∈ unfoldTime a, dim y = ⟨c, h, w⟩ := by
  obtain ⟨h₁, h₂⟩ := dim_halves a c h w ha
  intro y hy
  rcases List.mem_cons.1 hy with rfl | hy
  · exact h₁
  · rwa [List.mem_singleton.1 hy]

theorem length_flatMap_unfoldTime (x : List F) : (x.flatMap unfoldTime).length = 2 * x.length := by
  rw [List.length_flatMap]
  simp [unfoldTime, mul_comm]

/-- after 'Rep', a chunk is cached as if a blank frame stood before it -/
theorem doublingCache_rep {chunk : List F} {d : Dim} (hd : ∀ a ∈ chunk, dim a = d) (hne : chunk ≠ []) :
    doublingCache .rep chunk = .ok ((zeros d :: chunk).rtake CACHE_T) := by
  unfold doublingCache
  rw [← List.singleton_append (l := chunk) (x := zeros d)]
  by_cases hshort : (chunk.rtake CACHE_T).length < 2
  · have hone : chunk.length = 1 := by
      have hpos := List.length_pos_iff.2 hne
      rw [length_rtake] at hshort
      unfold CACHE_T at hshort
      omega
    obtain ⟨b, rfl⟩ := List.length_eq_one_iff.1 hone
    have hb : dim b = d := hd b (List.mem_singleton_self b)
    rw [if_pos hshort]
    refine (cat_ok (a := [zeros (dim b)]) (b := [b]) (d := d) fun x hx => ?_).trans (by rw [hb]; rfl)
    rcases List.mem_append.1 hx with hz | hin
    · rw [List.mem_singleton.1 hz, dim_zeros, hb]
    · exact hd x hin
  · rw [if_neg hshort, rtake_of_long (le_length_of_rtake hshort)]

theorem doublingCache_frames {past chunk : List F} {d : Dim} (hd : ∀ a ∈ past ++ chunk, dim a = d) (hne : chunk ≠ [])
    (hpast : past ≠ []) :
    doublingCache (.frames (past.rtake CACHE_T)) chunk = .ok ((past ++ chunk).rtake CACHE_T) := by
  unfold doublingCache
  by_cases hshort : (chunk.rtake CACHE_T).length < 2
  · rw [if_pos hshort]
    exact catLast_ok hd hne hpast (getLast?_rtake past 1) hshort
  · rw [if_neg hshort, rtake_of_long (le_length_of_rtake hshort)]

/-- later chunks: with its cache, the time convolution gives what it gives on all later frames -/
theorem timeConv_later {timeConv : CausalConv3d F} {h w : ℕ} (hc : timeConv.Causal) {b : F} {rest chunk : List F}
    (hd : ∀ a ∈ b :: rest ++ chunk, dim a = ⟨timeConv.inChannels, h, w⟩) (hne : chunk ≠ []) :
    ∃ out, timeConv.forward chunk (some ((zeros ⟨timeConv.inChannels, h, w⟩ :: b :: rest).rtake CACHE_T)) = .ok out ∧
      timeConv.whole (b :: rest ++ chunk) = timeConv.whole (b :: rest) ++ out ∧
      (∀ y ∈ out, dim y = ⟨timeConv.outChannels, h, w⟩) ∧ out.length = chunk.length := by
  set z : F := zeros ⟨timeConv.inChannels, h, w⟩ with hz
  have hlater : ∀ x ∈ b :: rest, dim x = ⟨timeConv.inChannels, h, w⟩ := fun x hx => hd x (List.mem_append_left _ hx)
  have hchunk : ∀ x ∈ chunk, dim x = ⟨timeConv.inChannels, h, w⟩ := fun x hx => hd x (List.mem_append_right _ hx)
  have hprev : ∀ x ∈ (z :: b :: rest).rtake CACHE_T ++ chunk, dim x = ⟨timeConv.inChannels, h, w⟩ := by
    intro x hx
    rcases List.mem_append.1 hx with hin | hin
    · rcases List.mem_cons.1 (mem_of_mem_rtake hin) with rfl | hr
      · exact dim_zeros _
      · exact hlater x hr
    · exact hchunk x hin
  have hplen : ((z :: b :: rest).rtake CACHE_T).length = 2 := by
    rw [length_rtake]
    simp [CACHE_T]
  have hforward := CausalConv3d.forward_some hc hprev hne hplen.le
  rw [hplen, Nat.sub_self, List.replicate_zero, List.nil_append] at hforward
  refine ⟨_, hforward, ?_, CausalConv3d.dim_slide hc hprev, ?_⟩
  · rw [CausalConv3d.whole_eq hc hd (by simp), CausalConv3d.whole_eq hc hlater (by simp), CausalConv3d.slide_past,
      padded_rtake]
  · rw [length_slide, windowCount_one, List.length_append, hplen]
    omega

theorem doubleTime_streams {timeConv : CausalConv3d F} {c : ℕ} (hc : timeConv.Causal) (hin : timeConv.inChannels = c)
    (hout : timeConv.outChannels = 2 * c) {m : ℕ} (hm : 0 < m) (h w : ℕ) :
    Streams (useSlot (doubleTime timeConv)) 1 (fun a => dim a = ⟨c, h, w⟩) (fun a => dim a = ⟨c, h, w⟩) m (2 * m)
      (doubled timeConv) := by
  subst hin
  refine Streams.slot (heldDoubling (zeros ⟨timeConv.inChannels, h, w⟩)) (fun _ => True) rfl rfl trivial ?_
  intro past chunk _ hd hlen
  have hne : chunk ≠ [] := ne_nil_of_pace hm hlen
  have hchunk : ∀ a ∈ chunk, dim a = ⟨timeConv.inChannels, h, w⟩ := fun a ha => hd a (List.mem_append_right _ ha)
  have hhalves : ∀ x : List F, (∀ a ∈ x, dim a = ⟨timeConv.outChannels, h, w⟩) →
      ∀ y ∈ x.flatMap unfoldTime, dim y = ⟨timeConv.inChannels, h, w⟩ := by
    intro x hx y hy
    obtain ⟨a, ha, hya⟩ := List.mem_flatMap.1 hy
    exact dim_unfoldTime ((hx a ha).trans (by rw [hout])) y hya
  match past with
  | [] =>
    -- the first chunk, of one frame
    obtain ⟨a, rfl⟩ : ∃ a, chunk = [a] := List.length_eq_one_iff.1 hlen
    exact ⟨[a], .rep, rfl, rfl, trivial, by simp [doubled, CausalConv3d.whole_nil hc], hchunk, rfl⟩
  | [a] =>
    -- the second one: padded, as if it were the first
    have hwhole := CausalConv3d.whole_eq hc hchunk hne
    refine ⟨(timeConv.whole chunk).flatMap unfoldTime,
      .frames ((zeros ⟨timeConv.inChannels, h, w⟩ :: chunk).rtake CACHE_T), ?_, ?_, trivial, ?_, hhalves _ ?_, ?_⟩
    · simp only [heldDoubling, doubleTime]
      rw [doublingCache_rep hchunk hne, ok_bind, CausalConv3d.forward_none hc hchunk hne, ← hwhole]
      rfl
    · obtain ⟨b, rest, rfl⟩ := List.exists_cons_of_ne_nil hne
      rfl
    · simp [doubled, CausalConv3d.whole_nil hc]
    · rw [hwhole]
      exact CausalConv3d.dim_slide hc (by simpa using CausalConv3d.dim_padded (c := []) hchunk 2)
    · rw [length_flatMap_unfoldTime, CausalConv3d.length_whole hc hchunk, hlen]
      rfl
  | a :: b :: rest =>
    have hlater : ∀ x ∈ b :: rest ++ chunk, dim x = ⟨timeConv.inChannels, h, w⟩ :=
      fun x hx => hd x (List.mem_cons_of_mem a hx)
    have hzero : ∀ x ∈ zeros ⟨timeConv.inChannels, h, w⟩ :: b :: rest ++ chunk,
        dim x = ⟨timeConv.inChannels, h, w⟩ := by
      intro x hx
      rcases List.mem_cons.1 hx with rfl | hr
      · exact dim_zeros _
      · exact hlater x hr
    obtain ⟨out, hforward, hwhole, hdim, hlenout⟩ := timeConv_later hc hlater hne
    refine ⟨out.flatMap unfoldTime,
      .frames ((zeros ⟨timeConv.inChannels, h, w⟩ :: b :: rest ++ chunk).rtake CACHE_T), ?_, rfl, trivial, ?_,
      hhalves _ hdim, ?_⟩
    · simp only [heldDoubling, doubleTime]
      rw [doublingCache_frames hzero hne (List.cons_ne_nil _ _), ok_bind, hforward]
      rfl
    · simp only [List.cons_append, doubled] at hwhole ⊢
      rw [hwhole, List.flatMap_append]
    · rw [length_flatMap_unfoldTime, hlenout, hlen]
      rfl

/-! #### Halving -/

/-- three frames, two apart, not padded -/
def Halving (conv : CausalConv3d F) : Prop := conv.kernel = 3 ∧ conv.stride = 2 ∧ conv.padding = 0

theorem halving_mk {c : ℕ} (weight : Kernel F c c 3) : Halving ⟨c, c, 3, 2, 0, weight⟩ := ⟨rfl, rfl, rfl⟩

theorem halving_whole {conv : CausalConv3d F} (hc : Halving conv) (x : List F) :
    conv.whole x = slide 3 2 conv.weight.apply x := by
  obtain ⟨hk, hs, hp⟩ := hc
  have hpad : pad (2 * (conv.padding : ℤ)) x = x := by
    rw [hp]
    cases x <;> simp [pad]
  rw [CausalConv3d.whole, hpad]
  generalize conv.weight.apply = K
  rw [hk, hs]

theorem halving_forward {conv : CausalConv3d F} (hc : Halving conv) {x : List F} {h w : ℕ}
    (hx : ∀ a ∈ x, dim a = ⟨conv.inChannels, h, w⟩) (hlen : 3 ≤ x.length) :
    conv.forward x none = .ok (slide 3 2 conv.weight.apply x) := by
  have hpad : pad (2 * (conv.padding : ℤ)) x = x := by
    rw [hc.2.2]
    cases x <;> simp [pad]
  have hwhole := halving_whole hc x
  rw [CausalConv3d.whole, hpad] at hwhole
  rw [CausalConv3d.forward, hpad, CausalConv3d.superForward, if_pos (fun a ha => by rw [hx a ha]),
    if_pos (by rw [hc.1]; exact hlen), hwhole]

/-- the last frame of a past -/
def heldHalving (past : List F) : Option (CacheItem F) :=
  if past.isEmpty then none else some (.frames (past.rtake 1))

theorem halveTime_streams {timeConv : CausalConv3d F} {c : ℕ} (hc : Halving timeConv) (hin : timeConv.inChannels = c)
    (hout : timeConv.outChannels = c) {m : ℕ} (hm : 0 < m) (h w : ℕ) :
    Streams (useSlot (halveTime timeConv)) 1 (fun a => dim a = ⟨c, h, w⟩) (fun a => dim a = ⟨c, h, w⟩) (2 * m) m
      (halved timeConv) := by
  subst hin
  -- the first frame and whole pairs have been taken
  refine Streams.slot heldHalving (fun past => past ≠ [] → past.length % 2 = 1) rfl rfl
    (fun hne => absurd rfl hne) ?_
  intro past chunk hodd hd hlen
  have hne : chunk ≠ [] := ne_nil_of_pace (by omega) hlen
  have hchunk : ∀ a ∈ chunk, dim a = ⟨timeConv.inChannels, h, w⟩ := fun a ha => hd a (List.mem_append_right _ ha)
  by_cases hpast : past = []
  · -- the first chunk, of one frame
    subst hpast
    obtain ⟨a, rfl⟩ : ∃ a, chunk = [a] := List.length_eq_one_iff.1 hlen
    refine ⟨[a], .frames [a], rfl, rfl, fun _ => rfl, ?_, hchunk, rfl⟩
    have hshort : slide 3 2 timeConv.weight.apply [a] = [] := slide_of_lt two_pos _ (by simp)
    simp [halved, halving_whole hc, hshort]
  · have hlen' : chunk.length = 2 * m := hlen.trans (pace_of_ne hpast)
    have hq := hodd hpast
    have hrtake : ∀ x ∈ past.rtake 1 ++ chunk, dim x = ⟨timeConv.inChannels, h, w⟩ := by
      intro x hx
      rcases List.mem_append.1 hx with hin | hin
      · exact hd x (List.mem_append_left _ (mem_of_mem_rtake hin))
      · exact hchunk x hin
    have hpos : 0 < past.length := List.length_pos_iff.2 hpast
    have hplen : (past.rtake 1).length = 1 := by
      rw [length_rtake]
      omega
    have hjoined : (past.rtake 1 ++ chunk).length = 1 + 2 * m := by rw [List.length_append, hplen, hlen']
    -- the next window starts at the last frame taken
    have hcount : 2 * windowCount 3 2 past.length = past.length - 1 := by
      unfold windowCount
      omega
    have hslide : slide 3 2 timeConv.weight.apply (past ++ chunk) = slide 3 2 timeConv.weight.apply past ++
        slide 3 2 timeConv.weight.apply (past.rtake 1 ++ chunk) := by
      rw [slide_append two_pos (by omega), hcount]
      rfl
    refine ⟨slide 3 2 timeConv.weight.apply (past.rtake 1 ++ chunk), .frames (chunk.rtake 1), ?_, ?_, fun _ => ?_, ?_, ?_, ?_⟩
    · have hheld : heldHalving past = some (.frames (past.rtake 1)) := by
        cases past with
        | nil => exact absurd rfl hpast
        | cons a past => rfl
      have hrr : (past.rtake 1).rtake 1 = past.rtake 1 := by
        rw [List.rtake, hplen, Nat.sub_self, List.drop_zero]
      simp only [hheld, halveTime]
      rw [hrr, cat_ok hrtake, ok_bind, halving_forward hc hrtake (by rw [hjoined]; omega)]
      rfl
    · have hlong : 1 ≤ chunk.length := List.length_pos_iff.2 hne
      rw [heldHalving, if_neg (by simp [hne]), rtake_of_long hlong]
    · rw [List.length_append, hlen']
      omega
    · obtain ⟨a, rest, rfl⟩ := List.exists_cons_of_ne_nil hpast
      simp only [List.cons_append, halved] at hslide ⊢
      rw [halving_whole hc, halving_whole hc, hslide]
    · intro y hy
      obtain ⟨v, hv, hvx, rfl⟩ := mem_slide two_pos hy
      have hne' : v ≠ [] := by rintro rfl; simp at hv
      rw [timeConv.weight.dim_apply v h w hne' (hv.trans hc.1.symm) fun a ha => hrtake a (hvx a ha), hout]
    · rw [length_slide, hjoined, pace_of_ne hpast]
      unfold windowCount
      omega

variable (weights : LayerWeights F) (c : ℕ)

/-- 'upsample3d' or 'upsample2d' -/
def up (t : Bool) : Resample F := init weights c (if t then .upsample3d else .upsample2d)

/-- 'downsample3d' or 'downsample2d' -/
def down (t : Bool) : Resample F := init weights c (if t then .downsample3d else .downsample2d)

/-- with its cache, chunk by chunk what it gives on the whole clip; time is doubled in one mode of the two -/
theorem up_streams (t : Bool) {m h w : ℕ} (hm : 0 < m) (hh : 1 ≤ h) (hw : 1 ≤ w) :
    Streams (up weights c t).cached t.toNat (fun a => dim a = ⟨c, h, w⟩) (fun a => dim a = ⟨c / 2, 2 * h, 2 * w⟩) m
      (2 ^ t.toNat * m) (up weights c t).whole := by
  cases t with
  | false =>
    rw [Bool.toNat_false, pow_zero, one_mul]
    exact (weights.upsample c).streams hh hw m
  | true =>
    have htime := doubleTime_streams (CausalConv3d.causal_mk (weights.conv 0 c (2 * c) 3)) rfl rfl hm h w
    exact htime.comp ((weights.upsample c).streams hh hw (2 * m))

/-- the same, with time halved in one mode of the two -/
theorem down_streams (t : Bool) {m h w : ℕ} (hm : 0 < m) (hh : 2 ≤ h) (hw : 2 ≤ w) :
    Streams (down weights c t).cached t.toNat (fun a => dim a = ⟨c, h, w⟩) (fun a => dim a = ⟨c, h / 2, w / 2⟩)
      (2 ^ t.toNat * m) m (down weights c t).whole := by
  cases t with
  | false =>
    rw [Bool.toNat_false, pow_zero, one_mul]
    exact (weights.downsample c).streams hh hw m
  | true =>
    have htime := halveTime_streams (halving_mk (weights.conv 0 c c 3)) rfl rfl hm (h / 2) (w / 2)
    exact ((weights.downsample c).streams hh hw (2 * m)).comp htime

/-- without a cache, time stays as it is; on a single frame, or where time does not change, that is no difference -/
theorem up_plain (t : Bool) {x : List F} {h w : ℕ} (hh : 1 ≤ h) (hw : 1 ≤ w) (hx : ∀ a ∈ x, dim a = ⟨c, h, w⟩) :
    (up weights c t).plain x = .ok (x.map (weights.upsample c).apply) ∧
      (t = false ∨ x.length = 1 → (up weights c t).whole x = x.map (weights.upsample c).apply) := by
  refine ⟨?_, fun hsame => ?_⟩
  · cases t <;> exact (weights.upsample c).forward_ok hh hw hx
  · cases t with
    | false => rfl
    | true =>
      obtain ⟨a, rfl⟩ := List.length_eq_one_iff.1 (hsame.resolve_left (by decide))
      change (doubled _ [a]).map _ = _
      rw [doubled, CausalConv3d.whole_nil ⟨rfl, rfl, rfl⟩]
      rfl

theorem down_plain (t : Bool) {x : List F} {h w : ℕ} (hh : 2 ≤ h) (hw : 2 ≤ w) (hx : ∀ a ∈ x, dim a = ⟨c, h, w⟩) :
    (down weights c t).plain x = .ok (x.map (weights.downsample c).apply) ∧
      (t = false ∨ x.length = 1 → (down weights c t).whole x = x.map (weights.downsample c).apply) := by
  refine ⟨?_, fun hsame => ?_⟩
  · cases t <;> exact (weights.downsample c).forward_ok hh hw hx
  · cases t with
    | false => rfl
    | true =>
      obtain ⟨a, rfl⟩ := List.length_eq_one_iff.1 (hsame.resolve_left (by decide))
      change halved _ [(weights.downsample c).apply a] = [(weights.downsample c).apply a]
      rw [halved, halving_whole ⟨rfl, rfl, rfl⟩, slide_of_lt two_pos _ (by simp)]

end Resample

/-! ### Layers in a row -/

/-- an element of `self.downsamples`, `self.middle` or `self.upsamples` -/
inductive Layer (F : Type) [Feature F] where
  | residualBlock (b : ResidualBlock F)
  | attentionBlock {c : ℕ} (g : FrameFn F c c 0 id)
  | resample (r : Resample F)

namespace Layer

/-- `layer(x, feat_cache, feat_idx)` -/
def cached : Layer F → List F → Py (Slots (CacheItem F)) (List F)
  | residualBlock b, x => b.cached x
  | attentionBlock _, _ => Py.raise ⟨.other, "forward() takes 2 positional arguments but 4 were given"⟩
  | resample r, x => r.cached x

/-- the body of `for layer in self.middle`, where only residual blocks are handed the cache -/
def middle : Layer F → List F → Py (Slots (CacheItem F)) (List F)
  | residualBlock b, x => b.cached x
  | attentionBlock g, x => Py.ofExcept (g.forward x)
  | resample r, x => Py.ofExcept (r.plain x)

/-- `layer(x)` -/
def plain : Layer F → List F → Except PyErr (List F)
  | residualBlock b, x => b.plain x
  | attentionBlock g, x => g.forward x
  | resample r, x => r.plain x

def whole : Layer F → List F → List F
  | residualBlock b, x => b.whole x
  | attentionBlock g, x => x.map g.apply
  | resample r, x => r.whole x

/-- the number of its `CausalConv3d` -/
def countConv3d : Layer F → ℕ
  | residualBlock b => (b.residual.map Sublayer.countConv3d).sum + if b.shortcut.isSome then 1 else 0
  | attentionBlock _ => 0
  | resample (.upsample3d _ _ _) | resample (.downsample3d _ _ _) => 1
  | resample _ => 0

end Layer

end Viduce.Vae
