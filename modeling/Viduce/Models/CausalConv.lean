/-
Causal convolutions with a cache (`CausalConv3d` and the code around its calls, `models/vae2_1.py`).

A clip is the list of its frames, and a frame is all that a tensor holds at one time. The learned parameters are functions:
a convolution applies its weight to windows of frames, and every other module works on one frame. Sums of clips of
unequal shapes raise here; torch would stretch an axis of length one.

- `CausalConv3d.forward_some`, `CausalConv3d.forward_none`: a chunk after cached frames, and on its own.
- `nextCache_ok`: what is cached are the last frames of all that was taken.
- `CausalConv3d.streams`: with its cache, a convolution gives chunk by chunk what it gives on the whole clip.
-/
import Mathlib.Tactic
import Viduce.Core.Streaming

namespace Viduce.Vae

open Viduce.Streaming

/-! ## Frames -/

/-- channels, height and width -/
structure Dim where
  channels : ℕ
  height : ℕ
  width : ℕ
deriving DecidableEq, Repr

/-- frames, as far as the networks take them apart -/
class Feature (F : Type) where
  dim : F → Dim
  zeros : Dim → F
  add : F → F → F
  /-- the first and the second half of the channels -/
  halves : F → F × F
  dim_zeros : ∀ d, dim (zeros d) = d
  dim_add : ∀ x y, dim x = dim y → dim (add x y) = dim x
  dim_halves : ∀ x c h w, dim x = ⟨2 * c, h, w⟩ → dim (halves x).1 = ⟨c, h, w⟩ ∧ dim (halves x).2 = ⟨c, h, w⟩

open Feature

variable {F : Type} [Feature F]

/-- `torch.cat([a, b], dim=2)` -/
def cat (a b : List F) : Except PyErr (List F) :=
  if ∀ x ∈ a ++ b, ∀ y ∈ a ++ b, dim x = dim y then .ok (a ++ b)
  else .error ⟨.runtimeError, "Sizes of tensors must match except in dimension 2"⟩

theorem cat_ok {a b : List F} {d : Dim} (h : ∀ x ∈ a ++ b, dim x = d) : cat a b = .ok (a ++ b) :=
  if_pos fun x hx y hy => (h x hx).trans (h y hy).symm

/-- `x + h` -/
def addFrames (x h : List F) : Except PyErr (List F) :=
  if x.map dim = h.map dim then .ok (x.zipWith add h)
  else .error ⟨.runtimeError, "The size of the tensors must match"⟩

theorem addFrames_ok {x h : List F} {d : Dim} (hx : ∀ a ∈ x, dim a = d) (hh : ∀ a ∈ h, dim a = d)
    (hlen : x.length = h.length) : addFrames x h = .ok (x.zipWith add h) := by
  refine if_pos ?_
  rw [List.map_congr_left hx, List.map_congr_left hh, List.map_const', List.map_const', hlen]

theorem dim_zipWith {x h : List F} {d : Dim} (hx : ∀ a ∈ x, dim a = d) (hh : ∀ a ∈ h, dim a = d) :
    ∀ y ∈ x.zipWith add h, dim y = d := by
  intro y hy
  obtain ⟨i, hi, rfl⟩ := List.mem_iff_getElem.1 hy
  rw [List.getElem_zipWith, dim_add, hx _ (List.getElem_mem _)]
  rw [hx _ (List.getElem_mem _), hh _ (List.getElem_mem _)]

/-- `F.pad` of p frames in front, which cuts frames off if p is negative -/
def pad (p : ℤ) (x : List F) : List F :=
  match x with
  | [] => []
  | a :: _ => List.replicate p.toNat (zeros (dim a)) ++ x.drop (-p).toNat

theorem pad_eq {x : List F} {d : Dim} (hx : ∀ a ∈ x, dim a = d) (hne : x ≠ []) (p : ℕ) :
    pad p x = List.replicate p (zeros d) ++ x := by
  cases x with
  | nil => exact absurd rfl hne
  | cons a x =>
    rw [pad, hx a List.mem_cons_self]
    simp

/-! ## Modules -/

/-- what a convolution over k frames computes from a window, i channels in and o out -/
structure Kernel (F : Type) [Feature F] (i o k : ℕ) where
  apply : List F → F
  dim_apply : ∀ v h w, v ≠ [] → v.length = k → (∀ x ∈ v, dim x = ⟨i, h, w⟩) → dim (apply v) = ⟨o, h, w⟩

/-- the lengths and offsets are along time; across a frame the convolution keeps the size -/
structure CausalConv3d (F : Type) [Feature F] where
  inChannels : ℕ
  outChannels : ℕ
  kernel : ℕ
  stride : ℕ
  padding : ℕ
  weight : Kernel F inChannels outChannels kernel

/-- a module that works on one frame: i channels in and o out, a height or width of at least `least`, which becomes
`size` of it -/
structure FrameFn (F : Type) [Feature F] (i o least : ℕ) (size : ℕ → ℕ) where
  apply : F → F
  dim_apply : ∀ x h w, least ≤ h → least ≤ w → dim x = ⟨i, h, w⟩ → dim (apply x) = ⟨o, size h, size w⟩

namespace CausalConv3d

/-- `super().forward(x)` -/
def superForward (conv : CausalConv3d F) (x : List F) : Except PyErr (List F) :=
  if ∀ a ∈ x, (dim a).channels = conv.inChannels then
    if conv.kernel ≤ x.length then .ok (slide conv.kernel conv.stride conv.weight.apply x)
    else .error ⟨.runtimeError, "Kernel size can't be greater than actual input size"⟩
  else .error ⟨.runtimeError, "the input does not have the expected number of channels"⟩

def forward (conv : CausalConv3d F) (x : List F) (cacheX : Option (List F)) : Except PyErr (List F) :=
  match cacheX with
  | some c =>
    if 0 < 2 * conv.padding then do
      let x ← cat c x
      conv.superForward (pad (2 * conv.padding - c.length) x)
    else conv.superForward (pad (2 * conv.padding) x)
  | none => conv.superForward (pad (2 * conv.padding) x)

/-- what it gives on a whole clip -/
def whole (conv : CausalConv3d F) (x : List F) : List F :=
  slide conv.kernel conv.stride conv.weight.apply (pad (2 * conv.padding) x)

end CausalConv3d

/-- a module on each of the frames -/
def FrameFn.forward {i o least : ℕ} {size : ℕ → ℕ} (g : FrameFn F i o least size) (x : List F) :
    Except PyErr (List F) :=
  if ∀ a ∈ x, (dim a).channels = i ∧ least ≤ (dim a).height ∧ least ≤ (dim a).width then .ok (x.map g.apply)
  else .error ⟨.runtimeError, "the input does not have the expected shape"⟩

theorem FrameFn.forward_ok {i o least h w : ℕ} {size : ℕ → ℕ} (g : FrameFn F i o least size) (hh : least ≤ h)
    (hw : least ≤ w) {x : List F} (hx : ∀ a ∈ x, dim a = ⟨i, h, w⟩) : g.forward x = .ok (x.map g.apply) := by
  refine if_pos fun a ha => ?_
  rw [hx a ha]
  exact ⟨rfl, hh, hw⟩

theorem FrameFn.dim_map {i o least h w : ℕ} {size : ℕ → ℕ} (g : FrameFn F i o least size) (hh : least ≤ h)
    (hw : least ≤ w) {x : List F} (hx : ∀ a ∈ x, dim a = ⟨i, h, w⟩) :
    ∀ b ∈ x.map g.apply, dim b = ⟨o, size h, size w⟩ := by
  intro b hb
  obtain ⟨a, ha, rfl⟩ := List.mem_map.1 hb
  exact g.dim_apply a h w hh hw (hx a ha)

theorem FrameFn.streams {i o least h w : ℕ} {size : ℕ → ℕ} {κ : Type} (g : FrameFn F i o least size) (hh : least ≤ h)
    (hw : least ≤ w) (m : ℕ) :
    Streams (κ := κ) (fun x => Py.ofExcept (g.forward x)) 0 (fun a => dim a = ⟨i, h, w⟩)
      (fun a => dim a = ⟨o, size h, size w⟩) m m (List.map g.apply) :=
  Streams.map (fun _ hx => g.forward_ok hh hw hx) (fun a ha => g.dim_apply a h w hh hw ha) m

/-! ## Causal convolutions with a cache -/

/-- an item of `feat_cache`: the string 'Rep' or frames -/
inductive CacheItem (F : Type) where
  | rep
  | frames (x : List F)

def CACHE_T : ℕ := 2

/-- `torch.cat([feat_cache[idx][:, :, -1, :, :].unsqueeze(2), cache_x], dim=2)` -/
def catLast (prev cacheX : List F) : Except PyErr (List F) :=
  match prev.getLast? with
  | some last => cat [last] cacheX
  | none => .error ⟨.indexError, "index -1 is out of bounds for dimension 2 with size 0"⟩

/-- the last frames of x and, if that is a single one, the last frame cached before it -/
def nextCache (c : Option (CacheItem F)) (x : List F) : Except PyErr (List F) :=
  let cacheX := x.rtake CACHE_T
  if cacheX.length < 2 then
    match c with
    | none => .ok cacheX
    | some .rep => .error ⟨.other, "string indices must be integers"⟩
    | some (.frames prev) => catLast prev cacheX
  else .ok cacheX

/-- the frames of a cached item -/
def cachedFrames : Option (CacheItem F) → Except PyErr (Option (List F))
  | none => .ok none
  | some .rep => .error ⟨.attributeError, "'str' object has no attribute 'to'"⟩
  | some (.frames x) => .ok (some x)

/-- a convolution of a residual block, of a head, or the first one: with its slot -/
def CausalConv3d.cached (conv : CausalConv3d F) (c : Option (CacheItem F)) (x : List F) :
    Except PyErr (List F × CacheItem F) := do
  let cacheX ← nextCache c x
  let prev ← cachedFrames c
  let y ← conv.forward x prev
  pure (y, .frames cacheX)

/-- a module that has no slot next to one that has -/
inductive Sublayer (F : Type) [Feature F] where
  | frameFn {i o least : ℕ} {size : ℕ → ℕ} (g : FrameFn F i o least size)
  | causalConv (conv : CausalConv3d F)

namespace Sublayer

/-- the body of `for layer in self.residual`, and of `for layer in self.head`, with a cache -/
def cached : Sublayer F → List F → Py (Slots (CacheItem F)) (List F)
  | frameFn g, x => Py.ofExcept (g.forward x)
  | causalConv conv, x => useSlot conv.cached x

/-- without a cache -/
def plain : Sublayer F → List F → Except PyErr (List F)
  | frameFn g, x => g.forward x
  | causalConv conv, x => conv.forward x none

def whole : Sublayer F → List F → List F
  | frameFn g, x => x.map g.apply
  | causalConv conv, x => conv.whole x

/-- the number of its `CausalConv3d` -/
def countConv3d : Sublayer F → ℕ
  | frameFn _ => 0
  | causalConv _ => 1

end Sublayer

/-- what modules in a row give on a whole clip -/
def wholeAll (fs : List (List F → List F)) (x : List F) : List F := fs.foldl (fun x f => f x) x

/-- `for layer in layers: x = layer(x)` without a cache -/
def plainAll (fs : List (List F → Except PyErr (List F))) (x : List F) : Except PyErr (List F) :=
  fs.foldlM (fun x f => f x) x

/-! ### What the slot of a convolution holds -/

/-- after a past: its last frames, or nothing before the first chunk -/
def heldFrames (past : List F) : Option (CacheItem F) := if past.isEmpty then none else some (.frames (past.rtake CACHE_T))

/-- a chunk of one frame leaves one of the past -/
theorem catLast_ok {prev past chunk : List F} {d : Dim} (hd : ∀ x ∈ past ++ chunk, dim x = d) (hne : chunk ≠ [])
    (hpast : past ≠ []) (hprev : prev.getLast? = past.getLast?) (h : (chunk.rtake CACHE_T).length < 2) :
    catLast prev (chunk.rtake CACHE_T) = .ok ((past ++ chunk).rtake CACHE_T) := by
  have hpos : 0 < chunk.length := List.length_pos_iff.2 hne
  have hone : chunk.length = 1 := by
    rw [length_rtake] at h
    unfold CACHE_T at h
    omega
  obtain ⟨past', last, rfl⟩ := (List.eq_nil_or_concat past).resolve_left hpast
  have hlast : (past'.concat last).rtake 1 = [last] := by simp [List.rtake]
  have hget : prev.getLast? = some last := by rw [hprev]; simp
  unfold catLast
  rw [rtake_append, hone, show CACHE_T - 1 = 1 from rfl, hlast, hget]
  refine cat_ok (d := d) fun x hx => ?_
  rcases List.mem_append.1 hx with hin | hin
  · rw [List.mem_singleton.1 hin]
    exact hd last (by simp)
  · exact hd x (List.mem_append_right _ (mem_of_mem_rtake hin))

omit [Feature F] in
theorem le_length_of_rtake {x : List F} (h : ¬ (x.rtake CACHE_T).length < 2) : CACHE_T ≤ x.length := by
  rw [length_rtake] at h
  unfold CACHE_T at h ⊢
  omega

theorem nextCache_ok {past chunk : List F} {d : Dim} (hd : ∀ x ∈ past ++ chunk, dim x = d) (hne : chunk ≠ []) :
    nextCache (heldFrames past) chunk = .ok ((past ++ chunk).rtake CACHE_T) := by
  unfold nextCache
  by_cases hshort : (chunk.rtake CACHE_T).length < 2
  · rw [if_pos hshort]
    cases past with
    | nil => rfl
    | cons a past => exact catLast_ok hd hne (List.cons_ne_nil a past) (getLast?_rtake _ 1) hshort
  · rw [if_neg hshort, rtake_of_long (le_length_of_rtake hshort)]

namespace CausalConv3d

/-- three frames, one apart, padded by two: as many frames come out as go in -/
def Causal (conv : CausalConv3d F) : Prop := conv.kernel = 3 ∧ conv.stride = 1 ∧ conv.padding = 1

instance (conv : CausalConv3d F) : Decidable conv.Causal := inferInstanceAs (Decidable (_ ∧ _))

/-- the convolutions of the networks: kernel 3, padding 1 -/
theorem causal_mk {i o : ℕ} (weight : Kernel F i o 3) : Causal ⟨i, o, 3, 1, 1, weight⟩ := ⟨rfl, rfl, rfl⟩

variable {conv : CausalConv3d F} {h w : ℕ}

theorem slide_eq (hc : conv.Causal) (x : List F) :
    slide conv.kernel conv.stride conv.weight.apply x = slide 3 1 conv.weight.apply x := by
  obtain ⟨hk, hs, -⟩ := hc
  generalize conv.weight.apply = K
  rw [hk, hs]

theorem dim_slide (hc : conv.Causal) {x : List F} (hx : ∀ a ∈ x, dim a = ⟨conv.inChannels, h, w⟩) :
    ∀ y ∈ slide 3 1 conv.weight.apply x, dim y = ⟨conv.outChannels, h, w⟩ := by
  intro y hy
  obtain ⟨v, hv, hvx, rfl⟩ := mem_slide one_pos hy
  exact conv.weight.dim_apply v h w (by rintro rfl; simp at hv) (hv.trans hc.1.symm) fun a ha => hx a (hvx a ha)

theorem superForward_ok (hc : conv.Causal) {x : List F} (hx : ∀ a ∈ x, dim a = ⟨conv.inChannels, h, w⟩)
    (hlen : 3 ≤ x.length) : conv.superForward x = .ok (slide 3 1 conv.weight.apply x) := by
  rw [superForward, if_pos (fun a ha => by rw [hx a ha]), if_pos (by rw [hc.1]; exact hlen), slide_eq hc]

/-- padding frames have the size of the others -/
theorem dim_padded {d : Dim} {c x : List F} (hx : ∀ a ∈ c ++ x, dim a = d) (n : ℕ) :
    ∀ a ∈ List.replicate n (zeros d) ++ c ++ x, dim a = d := by
  intro a ha
  rw [List.append_assoc] at ha
  rcases List.mem_append.1 ha with hz | hcx
  · rw [(List.mem_replicate.1 hz).2, dim_zeros]
  · exact hx a hcx

/-- a chunk after cached frames: these, and padding in place of those that are not there -/
theorem forward_some (hc : conv.Causal) {c x : List F} (hx : ∀ a ∈ c ++ x, dim a = ⟨conv.inChannels, h, w⟩) (hne : x ≠ [])
    (hlen : c.length ≤ 2) :
    conv.forward x (some c) =
      .ok (slide 3 1 conv.weight.apply (List.replicate (2 - c.length) (zeros ⟨conv.inChannels, h, w⟩) ++ c ++ x)) := by
  have hp := hc.2.2
  have hpos : 0 < x.length := List.length_pos_iff.2 hne
  have hpad : pad (2 * (conv.padding : ℤ) - c.length) (c ++ x) =
      List.replicate (2 - c.length) (zeros ⟨conv.inChannels, h, w⟩) ++ c ++ x := by
    have hcast : 2 * (conv.padding : ℤ) - c.length = ((2 - c.length : ℕ) : ℤ) := by omega
    rw [hcast, pad_eq hx (by simp [hne]), List.append_assoc]
  have hcat : cat c x = .ok (c ++ x) := cat_ok hx
  rw [forward]
  simp only [hcat, ok_bind]
  rw [if_pos (by omega), hpad, superForward_ok hc (dim_padded hx _)]
  simp only [List.length_append, List.length_replicate]
  omega

/-- a chunk on its own, after two frames of padding -/
theorem forward_none (hc : conv.Causal) {x : List F} (hx : ∀ a ∈ x, dim a = ⟨conv.inChannels, h, w⟩) (hne : x ≠ []) :
    conv.forward x none = .ok (slide 3 1 conv.weight.apply (List.replicate 2 (zeros ⟨conv.inChannels, h, w⟩) ++ x)) := by
  have hp := hc.2.2
  have hpos : 0 < x.length := List.length_pos_iff.2 hne
  have hcast : 2 * (conv.padding : ℤ) = ((2 : ℕ) : ℤ) := by omega
  have hdim := dim_padded (c := []) hx 2
  rw [List.append_nil] at hdim
  rw [forward, hcast, pad_eq hx hne, superForward_ok hc hdim]
  simp only [List.length_append, List.length_replicate]
  omega

/-- the padded windows of a past and a chunk: those of the past, then those of its last frames and the chunk -/
theorem slide_past (conv : CausalConv3d F) (z : F) (past chunk : List F) :
    slide 3 1 conv.weight.apply (List.replicate 2 z ++ (past ++ chunk)) =
      slide 3 1 conv.weight.apply (List.replicate 2 z ++ past) ++
        slide 3 1 conv.weight.apply
          (List.replicate (2 - (past.rtake CACHE_T).length) z ++ past.rtake CACHE_T ++ chunk) := by
  have hcount : windowCount 3 1 (List.replicate 2 z ++ past).length = past.length := by
    rw [windowCount_one, List.length_append, List.length_replicate]
    omega
  rw [← List.append_assoc, slide_append one_pos (by omega), hcount, one_mul, drop_padding]
  rfl

theorem whole_eq (hc : conv.Causal) {x : List F} (hx : ∀ a ∈ x, dim a = ⟨conv.inChannels, h, w⟩) (hne : x ≠ []) :
    conv.whole x = slide 3 1 conv.weight.apply (List.replicate 2 (zeros ⟨conv.inChannels, h, w⟩) ++ x) := by
  have hcast : 2 * (conv.padding : ℤ) = ((2 : ℕ) : ℤ) := by rw [hc.2.2]; rfl
  rw [whole, slide_eq hc, hcast, pad_eq hx hne]

theorem whole_nil (hc : conv.Causal) : conv.whole [] = [] := by
  rw [whole, slide_eq hc]
  exact slide_of_lt one_pos _ (Nat.zero_lt_succ 2)

theorem length_whole (hc : conv.Causal) {x : List F} (hx : ∀ a ∈ x, dim a = ⟨conv.inChannels, h, w⟩) :
    (conv.whole x).length = x.length := by
  by_cases hne : x = []
  · rw [hne, whole_nil hc]
  · rw [whole_eq hc hx hne, length_slide, windowCount_one, List.length_append, List.length_replicate]
    omega

theorem dim_whole (hc : conv.Causal) {x : List F} (hx : ∀ a ∈ x, dim a = ⟨conv.inChannels, h, w⟩) :
    ∀ y ∈ conv.whole x, dim y = ⟨conv.outChannels, h, w⟩ := by
  by_cases hne : x = []
  · rw [hne, whole_nil hc]
    exact fun y hy => absurd hy List.not_mem_nil
  · rw [whole_eq hc hx hne]
    exact dim_slide hc (by simpa using dim_padded (c := []) hx 2)

/-- without a cache -/
theorem forward_whole (hc : conv.Causal) {x : List F} (hx : ∀ a ∈ x, dim a = ⟨conv.inChannels, h, w⟩) (hne : x ≠ []) :
    conv.forward x none = .ok (conv.whole x) := by
  rw [forward_none hc hx hne, whole_eq hc hx hne]

/-- with its cache, a convolution gives chunk by chunk what it gives on the whole clip -/
theorem streams (hc : conv.Causal) {m : ℕ} (hm : 0 < m) (h w : ℕ) :
    Streams (useSlot conv.cached) 1 (fun a => dim a = ⟨conv.inChannels, h, w⟩)
      (fun a => dim a = ⟨conv.outChannels, h, w⟩) m m conv.whole := by
  refine Streams.slot heldFrames (fun _ => True) (whole_nil hc) rfl trivial ?_
  intro past chunk _ hd hlen
  have hne : chunk ≠ [] := ne_nil_of_pace hm hlen
  have hpast : ∀ a ∈ past, dim a = ⟨conv.inChannels, h, w⟩ := fun a ha => hd a (List.mem_append_left _ ha)
  have hchunk : ∀ a ∈ chunk, dim a = ⟨conv.inChannels, h, w⟩ := fun a ha => hd a (List.mem_append_right _ ha)
  have hrtake : ∀ a ∈ past.rtake CACHE_T ++ chunk, dim a = ⟨conv.inChannels, h, w⟩ := by
    intro a ha
    rcases List.mem_append.1 ha with hin | hin
    · exact hpast a (mem_of_mem_rtake hin)
    · exact hchunk a hin
  have hshort : (past.rtake CACHE_T).length ≤ 2 := (length_rtake past CACHE_T).trans_le (Nat.min_le_left _ _)
  set out := slide 3 1 conv.weight.apply (List.replicate (2 - (past.rtake CACHE_T).length) (zeros ⟨conv.inChannels, h, w⟩) ++
    past.rtake CACHE_T ++ chunk) with hout
  have hforward : ∀ prev, cachedFrames (heldFrames past) = .ok prev → conv.forward chunk prev = .ok out := by
    intro prev hprev
    cases past with
    | nil =>
      obtain rfl : prev = none := (Except.ok.inj hprev).symm
      exact forward_none hc hchunk hne
    | cons a past =>
      obtain rfl : prev = some ((a :: past).rtake CACHE_T) := (Except.ok.inj hprev).symm
      exact forward_some hc hrtake hne hshort
  obtain ⟨prev, hprev⟩ : ∃ prev, cachedFrames (heldFrames past) = .ok prev := by
    cases past with
    | nil => exact ⟨none, rfl⟩
    | cons a past => exact ⟨_, rfl⟩
  refine ⟨out, .frames ((past ++ chunk).rtake CACHE_T), ?_, ?_, trivial, ?_, ?_, ?_⟩
  · rw [cached, nextCache_ok hd hne, ok_bind, hprev, ok_bind, hforward prev hprev]
    rfl
  · rw [heldFrames, if_neg (by simp [hne])]
  · rw [whole_eq hc hd (by simp [hne]), slide_past, ← hout]
    congr 1
    by_cases hp : past = []
    · rw [hp, whole_nil hc]
      exact slide_of_lt one_pos _ (by simp)
    · rw [whole_eq hc hpast hp]
  · exact dim_slide hc (dim_padded hrtake _)
  · rw [hout, length_slide, windowCount_one, List.length_append, List.length_append, List.length_replicate, ← hlen]
    omega

/-- a window of one frame, not padded -/
def Single (conv : CausalConv3d F) : Prop := conv.kernel = 1 ∧ conv.stride = 1 ∧ conv.padding = 0

theorem whole_single (hc : conv.Single) (x : List F) : conv.whole x = x.map fun a => conv.weight.apply [a] := by
  obtain ⟨hk, hs, hp⟩ := hc
  have hpad : pad (2 * (conv.padding : ℤ)) x = x := by
    rw [hp]
    cases x <;> simp [pad]
  rw [whole, hpad, ← slide_one]
  generalize conv.weight.apply = K
  rw [hk, hs]

/-- it takes each frame by itself -/
theorem forward_single (hc : conv.Single) {x : List F} (hx : ∀ a ∈ x, dim a = ⟨conv.inChannels, h, w⟩) (hne : x ≠ []) :
    conv.forward x none = .ok (x.map fun a => conv.weight.apply [a]) := by
  have hpos : 1 ≤ x.length := List.length_pos_iff.2 hne
  have hwhole := whole_single hc x
  have hpad : pad (2 * (conv.padding : ℤ)) x = x := by
    rw [hc.2.2]
    cases x <;> simp [pad]
  rw [whole, hpad] at hwhole
  rw [forward, hpad, superForward, if_pos (fun a ha => by rw [hx a ha]), if_pos (by rw [hc.1]; exact hpos), hwhole]

theorem dim_single (hc : conv.Single) {a : F} (ha : dim a = ⟨conv.inChannels, h, w⟩) :
    dim (conv.weight.apply [a]) = ⟨conv.outChannels, h, w⟩ :=
  conv.weight.dim_apply [a] h w (List.cons_ne_nil _ _) hc.1.symm (by simpa using ha)

end CausalConv3d

end Viduce.Vae
