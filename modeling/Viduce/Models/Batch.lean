/-
Batches: the networks of `models/vae2_1.py` on a tensor that holds several clips.

A frame of a batch is a frame of each of its clips. A convolution and the other learned modules are applied to each clip of
a batch by torch; where the source folds the batch into time, `rearrange(x, 'b c t h w -> (b t) c h w')`, the module takes
the frames of all clips as one list of images. What is checked of a batch is checked of its first clip: all clips of a
tensor have one shape.

- `FrameFn.each_forward`: folding, a module on each image, and folding back is the module on each clip.
- `ClipOf`: a clip of a batch. Each function of the networks keeps it (`Agree`, `InStep`): on a batch it does to each clip
  what it does to that clip alone, and raises if it raises there.
- `Encoder3d.cached_each`, `Decoder3d.cached_each`: so do the networks, with their slots.
-/
import Mathlib.Tactic
import Viduce.Core.Parallel
import Viduce.Core.Tensor
import Viduce.Models.CausalVae

namespace Viduce.Vae

open Viduce.Streaming
open Feature

variable {F : Type} [Feature F] {n : ℕ}

/-! ## Frames of a batch -/

/-- a frame of each of n + 1 clips -/
abbrev Batch (n : ℕ) (F : Type) : Type := Fin (n + 1) → F

instance : Feature (Batch n F) where
  dim a := dim (a 0)
  zeros d := fun _ => zeros d
  add x y := fun j => add (x j) (y j)
  halves x := (fun j => (halves (x j)).1, fun j => (halves (x j)).2)
  dim_zeros d := dim_zeros d
  dim_add x y h := dim_add (x 0) (y 0) h
  dim_halves x c h w hx := dim_halves (x 0) c h w hx

theorem dim_batch (a : Batch n F) : dim a = dim (a 0) := rfl

/-! ## The networks on a batch -/

def Kernel.each (n : ℕ) {i o k : ℕ} (K : Kernel F i o k) : Kernel (Batch n F) i o k where
  apply v := fun j => K.apply (v.map (· j))
  dim_apply v h w hne hlen hv :=
    K.dim_apply (v.map (· 0)) h w (by simpa using hne) (by simpa using hlen) (by simpa [dim_batch] using hv)

def CausalConv3d.each (n : ℕ) (conv : CausalConv3d F) : CausalConv3d (Batch n F) :=
  ⟨conv.inChannels, conv.outChannels, conv.kernel, conv.stride, conv.padding, conv.weight.each n⟩

def FrameFn.each (n : ℕ) {i o least : ℕ} {size : ℕ → ℕ} (g : FrameFn F i o least size) :
    FrameFn (Batch n F) i o least size where
  apply x := fun j => g.apply (x j)
  dim_apply x h w hh hw hx := g.dim_apply (x 0) h w hh hw hx

def Sublayer.each (n : ℕ) : Sublayer F → Sublayer (Batch n F)
  | frameFn g => frameFn (g.each n)
  | causalConv conv => causalConv (conv.each n)

def ResidualBlock.each (n : ℕ) (b : ResidualBlock F) : ResidualBlock (Batch n F) where
  residual := b.residual.map (Sublayer.each n)
  shortcut := b.shortcut.map (CausalConv3d.each n)

def Resample.each (n : ℕ) : Resample F → Resample (Batch n F)
  | identity => identity
  | upsample2d c resample => upsample2d c (resample.each n)
  | upsample3d c resample timeConv => upsample3d c (resample.each n) (timeConv.each n)
  | downsample2d c resample => downsample2d c (resample.each n)
  | downsample3d c resample timeConv => downsample3d c (resample.each n) (timeConv.each n)

def Layer.each (n : ℕ) : Layer F → Layer (Batch n F)
  | residualBlock b => residualBlock (b.each n)
  | attentionBlock g => attentionBlock (g.each n)
  | resample r => resample (r.each n)

def Encoder3d.each (n : ℕ) (e : Encoder3d F) : Encoder3d (Batch n F) where
  conv1 := e.conv1.each n
  downsamples := e.downsamples.map (Layer.each n)
  middle := e.middle.map (Layer.each n)
  head := e.head.map (Sublayer.each n)

def Decoder3d.each (n : ℕ) (d : Decoder3d F) : Decoder3d (Batch n F) where
  conv1 := d.conv1.each n
  middle := d.middle.map (Layer.each n)
  upsamples := d.upsamples.map (Layer.each n)
  head := d.head.map (Sublayer.each n)

/-! ## A clip of a batch -/

/-- clip j, in a batch whose clips have frames of one shape -/
structure ClipOf (j : Fin (n + 1)) (x : List (Batch n F)) (y : List F) : Prop where
  clip : x.map (· j) = y
  sized : ∃ d, ∀ a ∈ x, ∀ i, dim (a i) = d

namespace ClipOf

variable {j : Fin (n + 1)} {x x' : List (Batch n F)} {y y' : List F}

theorem length (h : ClipOf j x y) : x.length = y.length := by rw [← h.clip, List.length_map]

theorem dims (h : ClipOf j x y) : x.map dim = y.map dim := by
  obtain ⟨d, hd⟩ := h.sized
  rw [← h.clip, List.map_map]
  refine List.map_congr_left ?_
  intro a ha
  rw [Function.comp_apply, hd a ha, dim_batch, hd a ha]

/-- what is checked of the shapes of a batch -/
theorem forall_dim (h : ClipOf j x y) (P : Dim → Prop) : (∀ a ∈ x, P (dim a)) ↔ ∀ b ∈ y, P (dim b) := by
  rw [← List.forall_mem_map (f := dim) (P := P), h.dims, List.forall_mem_map]

theorem of_subset (h : ClipOf j x y) (hsub : ∀ a ∈ x', a ∈ x) (hclip : x'.map (· j) = y') : ClipOf j x' y' :=
  ⟨hclip, h.sized.imp fun _ hd a ha => hd a (hsub a ha)⟩

theorem take (h : ClipOf j x y) (k : ℕ) : ClipOf j (x.take k) (y.take k) :=
  h.of_subset (fun _ ha => List.mem_of_mem_take ha) (by rw [List.map_take, h.clip])

theorem drop (h : ClipOf j x y) (k : ℕ) : ClipOf j (x.drop k) (y.drop k) :=
  h.of_subset (fun _ ha => List.mem_of_mem_drop ha) (by rw [List.map_drop, h.clip])

theorem rtake (h : ClipOf j x y) (k : ℕ) : ClipOf j (x.rtake k) (y.rtake k) := by
  rw [List.rtake, List.rtake, h.length]
  exact h.drop _

theorem append (h : ClipOf j x y) (h' : ClipOf j x' y') (hsame : ∀ a ∈ x ++ x', ∀ b ∈ x ++ x', dim a = dim b) :
    ClipOf j (x ++ x') (y ++ y') := by
  refine ⟨by rw [List.map_append, h.clip, h'.clip], ?_⟩
  obtain ⟨d, hd⟩ := h.sized
  obtain ⟨d', hd'⟩ := h'.sized
  cases x with
  | nil => exact ⟨d', hd'⟩
  | cons a x =>
    refine ⟨dim a, ?_⟩
    intro b hb i
    rw [hsame a (by simp) b hb]
    rcases List.mem_append.1 hb with hin | hin
    · rw [hd b hin, dim_batch, hd b hin]
    · rw [hd' b hin, dim_batch, hd' b hin]

end ClipOf

/-! ## Folding -/

/-- the clips of a batch -/
def clips (x : List (Batch n F)) : List (List F) := (List.range (n + 1)).map fun j => x.map fun a => a (Fin.ofNat (n + 1) j)

/-- `rearrange(x, 'b c t h w -> (b t) c h w')` -/
def foldBatch (x : List (Batch n F)) : List F := (clips x).flatten

/-- `rearrange(x, '(b t) c h w -> b c t h w', t=t)` -/
def unfoldBatch (n t : ℕ) (images : List F) : List (Batch n F) :=
  (List.range t).map fun k j => images.getD (j * t + k) (zeros ⟨0, 0, 0⟩)

omit [Feature F] in
theorem mem_foldBatch {x : List (Batch n F)} {b : F} : b ∈ foldBatch x ↔ ∃ a ∈ x, ∃ i, b = a i := by
  simp only [foldBatch, clips, List.mem_flatten, List.mem_map, List.mem_range]
  constructor
  · rintro ⟨_, ⟨j, -, rfl⟩, hb⟩
    obtain ⟨a, ha, rfl⟩ := List.mem_map.1 hb
    exact ⟨a, ha, _, rfl⟩
  · rintro ⟨a, ha, i, rfl⟩
    refine ⟨_, ⟨i, i.isLt, rfl⟩, List.mem_map.2 ⟨a, ha, ?_⟩⟩
    simp

/-- image k of clip j stands at j * t + k -/
theorem unfold_fold (x : List (Batch n F)) (g : F → F) :
    unfoldBatch n x.length ((foldBatch x).map g) = x.map fun a j => g (a j) := by
  refine List.ext_getElem (by simp [unfoldBatch]) ?_
  intro k h₁ h₂
  have hk : k < x.length := by simpa using h₂
  simp only [unfoldBatch, List.getElem_map, List.getElem_range]
  funext j
  have hblock : (foldBatch x)[(j : ℕ) * x.length + k]? = (x.map fun a => a (Fin.ofNat (n + 1) j))[k]? :=
    blocks_getElem? (fun i _ => List.length_map _) j.isLt hk
  rw [List.getD_eq_getElem?_getD, List.getElem?_map, hblock]
  simp [hk]

/-- **Folding.** For frames of one shape, to fold the batch into time, to run the module on all images and to fold back is
to run it on each clip. -/
theorem FrameFn.each_forward {i o least : ℕ} {size : ℕ → ℕ} (g : FrameFn F i o least size) {x : List (Batch n F)} {d : Dim}
    (hx : ∀ a ∈ x, ∀ i, dim (a i) = d) :
    (g.each n).forward x = g.forward (foldBatch x) >>= fun images => .ok (unfoldBatch n x.length images) := by
  have hcheck : (∀ a ∈ x, (dim a).channels = i ∧ least ≤ (dim a).height ∧ least ≤ (dim a).width) ↔
      ∀ b ∈ foldBatch x, (dim b).channels = i ∧ least ≤ (dim b).height ∧ least ≤ (dim b).width := by
    constructor
    · intro h b hb
      obtain ⟨a, ha, k, rfl⟩ := mem_foldBatch.1 hb
      have hall := h a ha
      rwa [dim_batch, hx a ha, ← hx a ha k] at hall
    · exact fun h a ha => h (a 0) (mem_foldBatch.2 ⟨a, ha, 0, rfl⟩)
  unfold FrameFn.forward
  by_cases h : ∀ a ∈ x, (dim a).channels = i ∧ least ≤ (dim a).height ∧ least ≤ (dim a).width
  · rw [if_pos h, if_pos (hcheck.1 h), ok_bind, unfold_fold]
    rfl
  · rw [if_neg h, if_neg fun h' => h (hcheck.2 h')]
    rfl

/-! ## Convolutions -/

namespace ClipOf

variable {j : Fin (n + 1)} {x x' : List (Batch n F)} {y y' : List F}

theorem cat (h : ClipOf j x y) (h' : ClipOf j x' y') : Agree (ClipOf j) (Vae.cat x x') (Vae.cat y y') := by
  have hdims : (x ++ x').map dim = (y ++ y').map dim := by rw [List.map_append, List.map_append, h.dims, h'.dims]
  have hcheck : (∀ a ∈ x ++ x', ∀ b ∈ x ++ x', dim a = dim b) ↔ ∀ a ∈ y ++ y', ∀ b ∈ y ++ y', dim a = dim b := by
    have hx : (∀ a ∈ x ++ x', ∀ b ∈ x ++ x', dim a = dim b) ↔
        ∀ d ∈ (x ++ x').map dim, ∀ d' ∈ (x ++ x').map dim, d = d' := by simp only [List.forall_mem_map]
    rw [hx, hdims]
    simp only [List.forall_mem_map]
  exact Agree.guarded hcheck fun hsame => .ok (h.append h' hsame)

theorem addFrames (h : ClipOf j x y) (h' : ClipOf j x' y') :
    Agree (ClipOf j) (Vae.addFrames x x') (Vae.addFrames y y') := by
  have hclip : ∀ i, (x.zipWith add x').map (fun a : Batch n F => a i) = (x.map (· i)).zipWith add (x'.map (· i)) := by
    intro i
    rw [List.map_zipWith, List.zipWith_map]
    rfl
  refine Agree.guarded (by rw [h.dims, h'.dims]) fun hsame => .ok ⟨by rw [hclip, h.clip, h'.clip], ?_⟩
  obtain ⟨d, hd⟩ := h.sized
  obtain ⟨d', hd'⟩ := h'.sized
  refine ⟨d, ?_⟩
  intro c hc i
  -- some frame is there on both sides
  obtain ⟨k, hk, -⟩ := List.mem_iff_getElem.1 hc
  rw [List.length_zipWith] at hk
  have hkx : k < x.length := by omega
  have hkx' : k < x'.length := by omega
  have hdd : d = d' := by
    have hk' := congrArg (fun l : List Dim => l[k]?) hsame
    simp only [List.getElem?_map, List.getElem?_eq_getElem hkx, List.getElem?_eq_getElem hkx', Option.map_some] at hk'
    rw [dim_batch, dim_batch, hd _ (List.getElem_mem hkx), hd' _ (List.getElem_mem hkx')] at hk'
    exact Option.some.inj hk'
  have hmem : c i ∈ (x.map (· i)).zipWith add (x'.map (· i)) := by
    rw [← hclip]
    exact List.mem_map_of_mem hc
  exact dim_zipWith (List.forall_mem_map.2 fun a ha => hd a ha i) (List.forall_mem_map.2 fun a ha => hdd ▸ hd' a ha i) _ hmem

theorem pad (h : ClipOf j x y) (p : ℤ) : ClipOf j (Vae.pad p x) (Vae.pad p y) := by
  obtain ⟨d, hd⟩ := h.sized
  obtain rfl := h.clip
  cases x with
  | nil => exact h
  | cons a x =>
    have hzeros : (zeros (dim a) : Batch n F) = fun _ => zeros d := by
      rw [dim_batch, hd a List.mem_cons_self]
      rfl
    simp only [Vae.pad, List.map_cons, hd a List.mem_cons_self, hzeros]
    refine ⟨?_, d, fun b hb i => ?_⟩
    · rw [List.map_append, List.map_replicate, List.map_drop, List.map_cons]
    · rcases List.mem_append.1 hb with hin | hin
      · rw [List.eq_of_mem_replicate hin, dim_zeros]
      · exact hd b (List.mem_of_mem_drop hin) i

end ClipOf

/-- what a kernel gives on each clip -/
theorem slide_each {i o k : ℕ} (K : Kernel F i o k) (s : ℕ) (j : Fin (n + 1)) (x : List (Batch n F)) :
    (slide k s (K.each n).apply x).map (· j) = slide k s K.apply (x.map (· j)) := by
  simp only [slide, List.map_map, List.length_map, Function.comp_def, Kernel.each, List.map_take, List.map_drop]

/-- what a kernel gives from windows of one shape has one shape -/
theorem Kernel.sized {i o k h w : ℕ} (K : Kernel F i o k) {s : ℕ} {x : List (Batch n F)}
    (hx : ∀ a ∈ x, ∀ j, dim (a j) = ⟨i, h, w⟩) :
    ∃ d, (0 < k → d.channels = o) ∧ ∀ b ∈ slide k s (K.each n).apply x, ∀ j, dim (b j) = d := by
  rcases Nat.eq_zero_or_pos s with rfl | hs
  · exact ⟨⟨o, 0, 0⟩, fun _ => rfl, by simp [slide, windowCount]⟩
  rcases Nat.eq_zero_or_pos k with rfl | hk
  · -- windows without a frame are all the same
    refine ⟨dim (K.apply []), fun h0 => absurd h0 (Nat.lt_irrefl 0), ?_⟩
    intro b hb j
    obtain ⟨v, hv, -, rfl⟩ := mem_slide hs hb
    rw [List.eq_nil_of_length_eq_zero hv]
    rfl
  · refine ⟨⟨o, h, w⟩, fun _ => rfl, ?_⟩
    intro b hb j
    obtain ⟨v, hv, hvx, rfl⟩ := mem_slide hs hb
    have hne : v ≠ [] := List.length_pos_iff.1 (by omega)
    exact K.dim_apply (v.map (· j)) h w (by simpa using hne) (by simpa using hv)
      (List.forall_mem_map.2 fun a ha => hx a (hvx a ha) j)

/-- clip j of what a convolution gives -/
structure ConvOf (conv : CausalConv3d F) (j : Fin (n + 1)) (x : List (Batch n F)) (y : List F) : Prop extends ClipOf j x y where
  channels : 0 < conv.kernel → ∀ b ∈ y, (dim b).channels = conv.outChannels

section Conv

variable (conv : CausalConv3d F) {j : Fin (n + 1)} {x : List (Batch n F)} {y : List F}

theorem ClipOf.superForward (h : ClipOf j x y) :
    Agree (ConvOf conv j) ((conv.each n).superForward x) (conv.superForward y) := by
  refine Agree.guarded (h.forall_dim fun d => d.channels = conv.inChannels) fun hchannels => ?_
  have hlen : (conv.each n).kernel ≤ x.length ↔ conv.kernel ≤ y.length := by
    rw [h.length]
    rfl
  obtain ⟨d, hd⟩ := h.sized
  obtain ⟨d', hch, hd'⟩ := conv.weight.sized (s := conv.stride) (h := d.height) (w := d.width) (x := x) fun a ha i => by
    have hin : (dim a).channels = conv.inChannels := hchannels a ha
    rw [dim_batch, hd a ha] at hin
    rw [hd a ha, ← hin]
  have hclip : (slide conv.kernel conv.stride (conv.weight.each n).apply x).map (· j) =
      slide conv.kernel conv.stride conv.weight.apply y := by
    rw [← h.clip]
    exact slide_each conv.weight conv.stride j x
  refine Agree.guarded hlen fun _ => .ok ⟨⟨hclip, d', hd'⟩, ?_⟩
  intro hk b hb
  rw [← hclip] at hb
  obtain ⟨a, ha, rfl⟩ := List.mem_map.1 hb
  rw [hd' a ha, hch hk]

/-- a convolution on a batch, with or without frames of its cache -/
theorem ClipOf.conv3d (h : ClipOf j x y) {c : Option (List (Batch n F))} {d : Option (List F)}
    (hcd : Option.Rel (ClipOf j) c d) : Agree (ConvOf conv j) ((conv.each n).forward x c) (conv.forward y d) := by
  cases hcd with
  | none => exact (h.pad _).superForward conv
  | @some c d hcd =>
    unfold CausalConv3d.forward
    refine Agree.ite Iff.rfl (fun _ => ?_) fun _ => (h.pad _).superForward conv
    refine (hcd.cat h).bind ?_
    intro x' y' h'
    rw [hcd.length]
    exact (h'.pad _).superForward conv

theorem ClipOf.forward (h : ClipOf j x y) {c : Option (List (Batch n F))} {d : Option (List F)}
    (hcd : Option.Rel (ClipOf j) c d) : Agree (ClipOf j) ((conv.each n).forward x c) (conv.forward y d) :=
  (h.conv3d conv hcd).mono fun _ _ h => h.toClipOf

end Conv

/-- a module on each of the frames -/
theorem ClipOf.frameFn {i o least : ℕ} {size : ℕ → ℕ} (g : FrameFn F i o least size) {j : Fin (n + 1)} {x : List (Batch n F)}
    {y : List F} (h : ClipOf j x y) : Agree (ClipOf j) ((g.each n).forward x) (g.forward y) := by
  refine Agree.guarded (h.forall_dim fun d => d.channels = i ∧ least ≤ d.height ∧ least ≤ d.width) fun hcheck => .ok ⟨?_, ?_⟩
  · rw [← h.clip, List.map_map, List.map_map]
    rfl
  · obtain ⟨d, hd⟩ := h.sized
    refine ⟨⟨o, size d.height, size d.width⟩, List.forall_mem_map.2 ?_⟩
    intro a ha k
    obtain ⟨hch, hh, hw⟩ := hcheck a ha
    rw [dim_batch, hd a ha] at hch hh hw
    exact g.dim_apply (a k) d.height d.width hh hw (by rw [hd a ha, ← hch])

/-! ## Convolutions with a cache -/

/-- clip j of what a slot holds -/
inductive ItemOf (j : Fin (n + 1)) : CacheItem (Batch n F) → CacheItem F → Prop where
  | rep : ItemOf j .rep .rep
  | frames {x : List (Batch n F)} {y : List F} (h : ClipOf j x y) : ItemOf j (.frames x) (.frames y)

/-- clip j of what the slots hold -/
abbrev SlotsOf (j : Fin (n + 1)) : Slots (CacheItem (Batch n F)) → Slots (CacheItem F) → Prop := SlotsAgree (ItemOf j)

section Cached

variable {j : Fin (n + 1)} {x : List (Batch n F)} {y : List F} {c : Option (CacheItem (Batch n F))} {d : Option (CacheItem F)}

theorem ClipOf.catLast (h : ClipOf j x y) {x' : List (Batch n F)} {y' : List F} (h' : ClipOf j x' y') :
    Agree (ClipOf j) (Vae.catLast x x') (Vae.catLast y y') := by
  obtain rfl := h.clip
  rcases List.eq_nil_or_concat x with rfl | ⟨l, a, rfl⟩
  · exact .error _
  · have hlast : ClipOf j [a] [a j] := h.of_subset (by simp) rfl
    simp only [Vae.catLast, List.concat_eq_append, List.map_append, List.map_cons, List.map_nil, List.getLast?_concat]
    exact hlast.cat h'

theorem ClipOf.nextCache (h : ClipOf j x y) (hcd : Option.Rel (ItemOf j) c d) :
    Agree (ClipOf j) (Vae.nextCache c x) (Vae.nextCache d y) := by
  have hlast := h.rtake CACHE_T
  refine Agree.ite (by rw [hlast.length]) (fun _ => ?_) fun _ => .ok hlast
  cases hcd with
  | none => exact .ok hlast
  | some hcd =>
    cases hcd with
    | rep => exact .error _
    | frames hprev => exact hprev.catLast hlast

theorem cachedFrames_agree (hcd : Option.Rel (ItemOf j) c d) :
    Agree (Option.Rel (ClipOf j)) (cachedFrames c) (cachedFrames d) := by
  cases hcd with
  | none => exact .ok .none
  | some hcd =>
    cases hcd with
    | rep => exact .error _
    | frames hprev => exact .ok (.some hprev)

theorem ClipOf.cached (conv : CausalConv3d F) (h : ClipOf j x y) (hcd : Option.Rel (ItemOf j) c d) :
    Agree (fun p q => ClipOf j p.1 q.1 ∧ ItemOf j p.2 q.2) ((conv.each n).cached c x) (conv.cached d y) := by
  refine (h.nextCache hcd).bind ?_
  intro cacheX cacheY hcache
  refine (cachedFrames_agree hcd).bind ?_
  intro prev prev' hprev
  exact (h.forward conv hprev).bind fun z z' hz => .ok ⟨hz, .frames hcache⟩

theorem Sublayer.cached_each (s : Sublayer F) (h : ClipOf j x y) :
    InStep (SlotsOf j) (ClipOf j) ((s.each n).cached x) (s.cached y) := by
  cases s with
  | frameFn g => exact .ofExcept (h.frameFn g)
  | causalConv conv => exact InStep.useSlot (fun _ _ _ _ hcd h => h.cached conv hcd) h

theorem Sublayer.plain_each (s : Sublayer F) (h : ClipOf j x y) : Agree (ClipOf j) ((s.each n).plain x) (s.plain y) := by
  cases s with
  | frameFn g => exact h.frameFn g
  | causalConv conv => exact h.forward conv .none

end Cached

/-! ## Layers -/

omit [Feature F] in
/-- modules in a row without a cache -/
theorem plainAll_agree {G ι : Type} {R : List G → List F → Prop} {f : ι → List G → Except PyErr (List G)}
    {g : ι → List F → Except PyErr (List F)} {ls : List ι} (h : ∀ i ∈ ls, ∀ x y, R x y → Agree R (f i x) (g i y)) {x : List G}
    {y : List F} (hxy : R x y) : Agree R (plainAll (ls.map f) x) (plainAll (ls.map g) y) := by
  rw [plainAll, plainAll, List.foldlM_map, List.foldlM_map]
  exact Agree.foldlM h hxy

/-- a layer whose time convolution gives two frames for one -/
def Resample.Proper : Resample F → Prop
  | upsample3d c _ timeConv => timeConv.outChannels = 2 * c ∧ 0 < timeConv.kernel
  | _ => True

def Layer.Proper : Layer F → Prop
  | resample r => r.Proper
  | _ => True

section Layers

variable {j : Fin (n + 1)} {x : List (Batch n F)} {y : List F} {c : Option (CacheItem (Batch n F))} {d : Option (CacheItem F)}

theorem ResidualBlock.shortcut_each (b : ResidualBlock F) (h : ClipOf j x y) :
    Agree (ClipOf j) ((b.each n).shortcutForward x) (b.shortcutForward y) := by
  obtain ⟨residual, shortcut⟩ := b
  cases shortcut with
  | none => exact .ok h
  | some conv => exact h.forward conv .none

theorem ResidualBlock.cached_each (b : ResidualBlock F) (h : ClipOf j x y) :
    InStep (SlotsOf j) (ClipOf j) ((b.each n).cached x) (b.cached y) := by
  refine (InStep.ofExcept (b.shortcut_each h)).bind ?_
  intro s s' hs
  have hbody : InStep (SlotsOf j) (ClipOf j) (chain ((b.each n).residual.map Sublayer.cached) x)
      (chain (b.residual.map Sublayer.cached) y) := by
    rw [ResidualBlock.each, List.map_map]
    exact InStep.chain (fun l _ _ _ hxy => l.cached_each hxy) h
  exact hbody.bind fun z z' hz => .ofExcept (hz.addFrames hs)

theorem ResidualBlock.plain_each (b : ResidualBlock F) (h : ClipOf j x y) :
    Agree (ClipOf j) ((b.each n).plain x) (b.plain y) := by
  refine (b.shortcut_each h).bind ?_
  intro s s' hs
  have hbody : Agree (ClipOf j) (plainAll ((b.each n).residual.map Sublayer.plain) x)
      (plainAll (b.residual.map Sublayer.plain) y) := by
    rw [ResidualBlock.each, List.map_map]
    exact plainAll_agree (fun l _ _ _ hxy => l.plain_each hxy) h
  exact hbody.bind fun z z' hz => hz.addFrames hs

/-- frames whose halves become two frames -/
theorem ClipOf.unfoldTime (h : ClipOf j x y) {c : ℕ} (hy : ∀ b ∈ y, (dim b).channels = 2 * c) :
    ClipOf j (x.flatMap Vae.unfoldTime) (y.flatMap Vae.unfoldTime) := by
  obtain ⟨d, hd⟩ := h.sized
  obtain rfl := h.clip
  refine ⟨?_, ⟨c, d.height, d.width⟩, fun b hb i => ?_⟩
  · rw [List.map_flatMap, List.flatMap_map]
    rfl
  · obtain ⟨a, ha, hba⟩ := List.mem_flatMap.1 hb
    have hch := hy (a j) (List.mem_map_of_mem ha)
    rw [hd a ha] at hch
    have hdim : dim (a i) = ⟨2 * c, d.height, d.width⟩ := by rw [hd a ha, ← hch]
    obtain ⟨h₁, h₂⟩ := dim_halves (a i) c d.height d.width hdim
    rcases List.mem_cons.1 hba with rfl | hba
    · exact h₁
    · rw [List.mem_singleton.1 hba]
      exact h₂

theorem ClipOf.doublingCache {c : CacheItem (Batch n F)} {d : CacheItem F} (h : ClipOf j x y) (hcd : ItemOf j c d) :
    Agree (ClipOf j) (Vae.doublingCache c x) (Vae.doublingCache d y) := by
  have hlast := h.rtake CACHE_T
  refine Agree.ite (by rw [hlast.length]) (fun _ => ?_) fun _ => .ok hlast
  cases hcd with
  | frames hprev => exact hprev.catLast hlast
  | rep =>
    refine ClipOf.cat ⟨?_, ?_⟩ hlast
    · obtain ⟨d, hd⟩ := hlast.sized
      rw [← hlast.clip, List.map_map, List.map_map]
      refine List.map_congr_left ?_
      intro a ha
      rw [Function.comp_apply, Function.comp_apply, dim_batch, hd a ha, hd a ha]
      rfl
    · obtain ⟨d, hd⟩ := hlast.sized
      exact ⟨d, List.forall_mem_map.2 fun a ha i => (dim_zeros _).trans (hd a ha 0)⟩

theorem ClipOf.doubleTime {timeConv : CausalConv3d F} {k : ℕ} (hout : timeConv.outChannels = 2 * k)
    (hkernel : 0 < timeConv.kernel) (h : ClipOf j x y) (hcd : Option.Rel (ItemOf j) c d) :
    Agree (fun p q => ClipOf j p.1 q.1 ∧ ItemOf j p.2 q.2) (Vae.doubleTime (timeConv.each n) c x)
      (Vae.doubleTime timeConv d y) := by
  have hunfold : ∀ (cacheX z : List (Batch n F)) (cacheY z' : List F), ClipOf j cacheX cacheY → ConvOf timeConv j z z' →
      ClipOf j (z.flatMap Vae.unfoldTime) (z'.flatMap Vae.unfoldTime) ∧ ItemOf j (.frames cacheX) (.frames cacheY) :=
    fun _ _ _ _ hcache hz => ⟨hz.toClipOf.unfoldTime fun b hb => (hz.channels hkernel b hb).trans hout, .frames hcache⟩
  cases hcd with
  | none => exact .ok ⟨h, .rep⟩
  | some hcd =>
    refine (h.doublingCache hcd).bind ?_
    intro cacheX cacheY hcache
    cases hcd with
    | rep => exact (h.conv3d timeConv .none).bind fun z z' hz => .ok (hunfold _ _ _ _ hcache hz)
    | frames hprev => exact (h.conv3d timeConv (.some hprev)).bind fun z z' hz => .ok (hunfold _ _ _ _ hcache hz)

theorem ClipOf.halveTime (timeConv : CausalConv3d F) (h : ClipOf j x y) (hcd : Option.Rel (ItemOf j) c d) :
    Agree (fun p q => ClipOf j p.1 q.1 ∧ ItemOf j p.2 q.2) (Vae.halveTime (timeConv.each n) c x)
      (Vae.halveTime timeConv d y) := by
  cases hcd with
  | none => exact .ok ⟨h, .frames h⟩
  | some hcd =>
    cases hcd with
    | rep => exact .error _
    | frames hprev =>
      refine ((hprev.rtake 1).cat h).bind ?_
      intro joined joined' hjoined
      exact (hjoined.forward timeConv .none).bind fun z z' hz => .ok ⟨hz, .frames (h.rtake 1)⟩

theorem Resample.plain_each (r : Resample F) (h : ClipOf j x y) : Agree (ClipOf j) ((r.each n).plain x) (r.plain y) := by
  cases r with
  | identity => exact .ok h
  | upsample2d c resample => exact h.frameFn resample
  | upsample3d c resample timeConv => exact h.frameFn resample
  | downsample2d c resample => exact h.frameFn resample
  | downsample3d c resample timeConv => exact h.frameFn resample

theorem Resample.cached_each {r : Resample F} (hr : r.Proper) (h : ClipOf j x y) :
    InStep (SlotsOf j) (ClipOf j) ((r.each n).cached x) (r.cached y) := by
  cases r with
  | identity => exact .ofExcept (.ok h)
  | upsample2d c resample => exact .ofExcept (h.frameFn resample)
  | downsample2d c resample => exact .ofExcept (h.frameFn resample)
  | upsample3d c resample timeConv =>
    have htime : InStep (SlotsOf j) (ClipOf j) (useSlot (Vae.doubleTime (timeConv.each n)) x)
        (useSlot (Vae.doubleTime timeConv) y) := InStep.useSlot (fun _ _ _ _ hcd h => h.doubleTime hr.1 hr.2 hcd) h
    exact htime.bind fun z z' hz => .ofExcept (hz.frameFn resample)
  | downsample3d c resample timeConv =>
    refine (InStep.ofExcept (h.frameFn resample)).bind ?_
    intro z z' hz
    exact InStep.useSlot (fun _ _ _ _ hcd h => h.halveTime timeConv hcd) hz

theorem Layer.cached_each (l : Layer F) (hl : l.Proper) (h : ClipOf j x y) :
    InStep (SlotsOf j) (ClipOf j) ((l.each n).cached x) (l.cached y) := by
  cases l with
  | residualBlock b => exact b.cached_each h
  | attentionBlock g => exact .raise _
  | resample r => exact Resample.cached_each hl h

theorem Layer.middle_each (l : Layer F) (h : ClipOf j x y) :
    InStep (SlotsOf j) (ClipOf j) ((l.each n).middle x) (l.middle y) := by
  cases l with
  | residualBlock b => exact b.cached_each h
  | attentionBlock g => exact .ofExcept (h.frameFn g)
  | resample r => exact .ofExcept (r.plain_each h)

theorem Layer.plain_each (l : Layer F) (h : ClipOf j x y) : Agree (ClipOf j) ((l.each n).plain x) (l.plain y) := by
  cases l with
  | residualBlock b => exact b.plain_each h
  | attentionBlock g => exact h.frameFn g
  | resample r => exact r.plain_each h

end Layers

/-! ## Networks -/

def Encoder3d.Proper (e : Encoder3d F) : Prop := ∀ l ∈ e.downsamples, l.Proper

def Decoder3d.Proper (d : Decoder3d F) : Prop := ∀ l ∈ d.upsamples, l.Proper

section Networks

variable {j : Fin (n + 1)} {x : List (Batch n F)} {y : List F}

theorem Sublayer.head_each (head : List (Sublayer F)) (h : ClipOf j x y) :
    InStep (SlotsOf j) (ClipOf j) (chain ((head.map (Sublayer.each n)).map Sublayer.cached) x)
      (chain (head.map Sublayer.cached) y) := by
  rw [List.map_map]
  exact InStep.chain (fun l _ _ _ hxy => l.cached_each hxy) h

theorem Layer.chain_each {layers : List (Layer F)} (hproper : ∀ l ∈ layers, l.Proper) (h : ClipOf j x y) :
    InStep (SlotsOf j) (ClipOf j) (chain ((layers.map (Layer.each n)).map Layer.cached) x)
      (chain (layers.map Layer.cached) y) := by
  rw [List.map_map]
  exact InStep.chain (fun l hl _ _ hxy => l.cached_each (hproper l hl) hxy) h

theorem Layer.chain_middle_each (layers : List (Layer F)) (h : ClipOf j x y) :
    InStep (SlotsOf j) (ClipOf j) (chain ((layers.map (Layer.each n)).map Layer.middle) x)
      (chain (layers.map Layer.middle) y) := by
  rw [List.map_map]
  exact InStep.chain (fun l _ _ _ hxy => l.middle_each hxy) h

theorem conv1_each (conv : CausalConv3d F) (h : ClipOf j x y) :
    InStep (SlotsOf j) (ClipOf j) (useSlot (conv.each n).cached x) (useSlot conv.cached y) :=
  InStep.useSlot (fun _ _ _ _ hcd h => h.cached conv hcd) h

theorem Encoder3d.cached_each {e : Encoder3d F} (he : e.Proper) (h : ClipOf j x y) :
    InStep (SlotsOf j) (ClipOf j) ((e.each n).cached x) (e.cached y) := by
  refine (conv1_each e.conv1 h).bind ?_
  intro x₁ y₁ h₁
  refine (Layer.chain_each he h₁).bind ?_
  intro x₂ y₂ h₂
  exact (Layer.chain_middle_each e.middle h₂).bind fun x₃ y₃ h₃ => Sublayer.head_each e.head h₃

theorem Decoder3d.cached_each {d : Decoder3d F} (hd : d.Proper) (h : ClipOf j x y) :
    InStep (SlotsOf j) (ClipOf j) ((d.each n).cached x) (d.cached y) := by
  refine (conv1_each d.conv1 h).bind ?_
  intro x₁ y₁ h₁
  refine (Layer.chain_middle_each d.middle h₁).bind ?_
  intro x₂ y₂ h₂
  exact (Layer.chain_each hd h₂).bind fun x₃ y₃ h₃ => Sublayer.head_each d.head h₃

end Networks

section Counts

variable (n : ℕ)

theorem Sublayer.countConv3d_each (s : Sublayer F) : (s.each n).countConv3d = s.countConv3d := by
  cases s <;> rfl

theorem Layer.countConv3d_each (l : Layer F) : (l.each n).countConv3d = l.countConv3d := by
  cases l with
  | residualBlock b =>
    obtain ⟨residual, shortcut⟩ := b
    simp [Layer.each, Layer.countConv3d, ResidualBlock.each, Function.comp_def, Sublayer.countConv3d_each]
  | attentionBlock g => rfl
  | resample r => cases r <;> rfl

theorem countConv3d_map (layers : List (Layer F)) :
    ((layers.map (Layer.each n)).map Layer.countConv3d).sum = (layers.map Layer.countConv3d).sum := by
  simp [Function.comp_def, Layer.countConv3d_each]

theorem countConv3d_head (head : List (Sublayer F)) :
    ((head.map (Sublayer.each n)).map Sublayer.countConv3d).sum = (head.map Sublayer.countConv3d).sum := by
  simp [Function.comp_def, Sublayer.countConv3d_each]

theorem Encoder3d.countConv3d_each (e : Encoder3d F) : (e.each n).countConv3d = e.countConv3d := by
  simp only [Encoder3d.countConv3d, Encoder3d.each, countConv3d_map, countConv3d_head]

theorem Decoder3d.countConv3d_each (d : Decoder3d F) : (d.each n).countConv3d = d.countConv3d := by
  simp only [Decoder3d.countConv3d, Decoder3d.each, countConv3d_map, countConv3d_head]

end Counts

end Viduce.Vae
