/-
The attention masks of `WanTransformer3DModel` (`models/transformer_wan.py`). The tokens lie in nT by nH by nW chunks of T by
H by W tokens; `prepare_attention_mask` gives each block the masks of its two attentions.

- `admits_slide`, `admits_chunk`, `admits_idToChunk`, `admits_idToSwin`: what the masks admit, in the places of the tokens: the
  padding of the tables makes no difference.
- `slidingChunkAttentionMask_ok`, `slideChunkBottlenect_ok`, `slidingWindow_ok`: a mask for each block, and how far they go
  together.
-/
import Mathlib.Tactic
import Viduce.Core.Py
import Viduce.Core.Influence

namespace Viduce.Transformer

open Viduce.Influence

/-! ## Model -/

structure Grid where
  nT : ℕ
  nH : ℕ
  nW : ℕ
  T : ℕ
  H : ℕ
  W : ℕ

/-- a token: its chunk, and where it is in its chunk -/
@[ext] structure Place (g : Grid) where
  nt : Fin g.nT
  nh : Fin g.nH
  nw : Fin g.nW
  t : Fin g.T
  h : Fin g.H
  w : Fin g.W
deriving DecidableEq

inductive Axis | t | h | w
deriving DecidableEq

/-- on each axis: the chunks, and the tokens in one of them -/
def Grid.chunks (g : Grid) : Axis → ℕ
  | .t => g.nT
  | .h => g.nH
  | .w => g.nW

def Grid.tile (g : Grid) : Axis → ℕ
  | .t => g.T
  | .h => g.H
  | .w => g.W

section Tokens

variable {g : Grid} {α : Type}

namespace Place

/-- the number of a token in the order `(nt nh nw t h w)` -/
def index (p : Place g) : ℕ := ((((p.nt * g.nH + p.nh) * g.nW + p.nw) * g.T + p.t) * g.H + p.h) * g.W + p.w

/-- its chunk -/
def chunk (p : Place g) : Axis → ℕ
  | .t => p.nt
  | .h => p.nh
  | .w => p.nw

/-- its place in the whole clip, `(nt t) (nh h) (nw w)` -/
def position (p : Place g) : Axis → ℕ
  | .t => p.nt * g.T + p.t
  | .h => p.nh * g.H + p.h
  | .w => p.nw * g.W + p.w

end Place

/-- `.expand(nT, nH, nW, T, H, W).flatten()` -/
def flattened (g : Grid) (f : Place g → α) : List α :=
  (List.finRange g.nT).flatMap fun nt => (List.finRange g.nH).flatMap fun nh => (List.finRange g.nW).flatMap fun nw =>
    (List.finRange g.T).flatMap fun t => (List.finRange g.H).flatMap fun h => (List.finRange g.W).map fun w =>
      f ⟨nt, nh, nw, t, h, w⟩

end Tokens

/-- `S` -/
def Grid.tokens (g : Grid) : ℕ := g.nT * g.T * g.nH * g.H * g.nW * g.W

def Grid.padLen (g : Grid) : ℕ := (128 - g.tokens % 128) % 128

/-- `F.pad(ids, (0, pad_len), value=value)` -/
def pad {α : Type} (g : Grid) (value : α) (ids : List α) : List α := ids ++ List.replicate g.padLen value

/-- what `create_block_mask` makes of a `mask_mod`, by the numbers of the query and the key -/
abbrev BlockMask := ℕ → ℕ → Bool

/-- the masks for the two attentions of a block, one for both or one for each; `none` admits everything -/
inductive Masks
  | one (m : Option BlockMask)
  | each (m₀ m₁ : Option BlockMask)

/-- the table of one number for each token and axis -/
structure Ids where
  t : List ℕ
  h : List ℕ
  w : List ℕ

/-- `id_to_nt`, `id_to_nh` and `id_to_nw` -/
def chunkIds (g : Grid) : Ids :=
  ⟨flattened g fun p => p.chunk .t, flattened g fun p => p.chunk .h, flattened g fun p => p.chunk .w⟩

/-- `id_to_t`, `id_to_h` and `id_to_w` -/
def positionIds (g : Grid) : Ids :=
  ⟨flattened g fun p => p.position .t, flattened g fun p => p.position .h, flattened g fun p => p.position .w⟩

def Ids.pad (g : Grid) (ids : Ids) : Ids := ⟨Transformer.pad g 0 ids.t, Transformer.pad g 0 ids.h, Transformer.pad g 0 ids.w⟩

def slidingWindowMaskMod (ids : Ids) (windowT windowH windowW : ℕ) : BlockMask := fun q kv =>
  decide (Near windowT (ids.t.getD q 0) (ids.t.getD kv 0)) && decide (Near windowH (ids.h.getD q 0) (ids.h.getD kv 0)) &&
    decide (Near windowW (ids.w.getD q 0) (ids.w.getD kv 0))

def chunkMaskMod (ids : Ids) : BlockMask := fun q kv =>
  ids.t.getD q 0 == ids.t.getD kv 0 && ids.h.getD q 0 == ids.h.getD kv 0 && ids.w.getD q 0 == ids.w.getD kv 0

def fullAttentionMask (blocks : ℕ) (_ : Grid) : List Masks := List.replicate blocks (.one none)

/-- `id_to_chunk` at a place in the whole clip -/
def chunkNumber (g : Grid) (t h w : ℕ) : ℤ := ((t / g.T * g.nH + h / g.H) * g.nW + w / g.W : ℕ)

/-- `id_to_chunk` -/
def idToChunk (g : Grid) : List ℤ := flattened g fun p => chunkNumber g (p.position .t) (p.position .h) (p.position .w)

/-- `torch.roll` by half a chunk: what stands at x comes from half a chunk further along the axis, round its end -/
def Grid.rolled (g : Grid) (a : Axis) (x : ℕ) : ℕ := (x + g.tile a / 2) % (g.chunks a * g.tile a)

/-- `id_to_swin` -/
def idToSwin (g : Grid) : List ℤ :=
  flattened g fun p =>
    chunkNumber g (g.rolled .t (p.position .t)) (g.rolled .h (p.position .h)) (g.rolled .w (p.position .w))

def sameMaskMod (ids : List ℤ) : BlockMask := fun q kv => ids.getD q 0 == ids.getD kv 0

def swinAttentionMask (blocks : ℕ) (g : Grid) : List Masks :=
  let chunkMask := sameMaskMod (pad g (-1) (idToChunk g))
  let swinMask := sameMaskMod (pad g (-2) (idToSwin g))
  (List.range blocks).map fun i => .one (some (if i % 2 = 0 then chunkMask else swinMask))

/-- the keyword arguments of `_sliding_chunk_attention_mask` -/
structure SlideArgs where
  windowT : ℕ := 1
  windowH : ℕ := 1
  windowW : ℕ := 1
  numSlideMask : ℕ := 3
  singleSlidePerBlock : Bool := true

def slidingChunkAttentionMask (blocks : ℕ) (args : SlideArgs) (g : Grid) : Except PyErr (List Masks) :=
  let ids := (chunkIds g).pad g
  let slideMask := slidingWindowMaskMod ids args.windowT args.windowH args.windowW
  let chunkMask := chunkMaskMod ids
  if args.numSlideMask = 0 then .error ⟨.other, "integer modulo by zero"⟩
  else
    let stride := blocks / args.numSlideMask
    .ok (List.replicate (blocks % args.numSlideMask) (.one (some chunkMask)) ++
      (List.range' 1 (stride * args.numSlideMask)).map fun i =>
        if i % stride = 0 then
          if args.singleSlidePerBlock then .each (some chunkMask) (some slideMask) else .one (some slideMask)
        else .one (some chunkMask))

/-- `bottleneck_ratio` is 0.8: `int(n * 0.8)` is the whole part of 4 n / 5 -/
def slideChunkBottlenectAttentionMask (blocks : ℕ) (g : Grid) : List Masks :=
  let slideMask := slidingWindowMaskMod (chunkIds g) 2 8 8
  let slideMaskBn := slidingWindowMaskMod (chunkIds g) 1 1 1
  let numBnLayers := blocks * 4 / 5
  let numOutLayers := (blocks - numBnLayers) / 2
  let numInLayers := blocks - numBnLayers - numOutLayers
  List.replicate numInLayers (.one (some slideMask)) ++ List.replicate numBnLayers (.one (some slideMaskBn)) ++
    List.replicate numOutLayers (.one (some slideMask))

def slidingWindowAttentionMask (blocks : ℕ) (g : Grid) : List Masks :=
  List.replicate blocks (.one (some (slidingWindowMaskMod (positionIds g) 4 16 16)))

inductive AttentionType
  | full
  | slideChunk
  | slideChunk6
  | slideChunkAll
  | slideChunkHalfBlock
  | slideChunkAllBlock
  | slideChunkAllBlock2x1x1
  | slideChunkAllBlock2x0x0
  | slideChunkBottleneck
  | swin
  | slideWindow4x16x16
deriving DecidableEq

namespace AttentionType

/-- the keys of `_attention_map` -/
def key : AttentionType → String
  | full => "full"
  | slideChunk => "slide_chunk"
  | slideChunk6 => "slide_chunk_6"
  | slideChunkAll => "slide_chunk_all"
  | slideChunkHalfBlock => "slide_chunk_half_block"
  | slideChunkAllBlock => "slide_chunk_all_block"
  | slideChunkAllBlock2x1x1 => "slide_chunk_all_block_2x1x1"
  | slideChunkAllBlock2x0x0 => "slide_chunk_all_block_2x0x0"
  | slideChunkBottleneck => "slide_chunk_bottleneck"
  | swin => "swin"
  | slideWindow4x16x16 => "slide_window_4x16x16"

def all : List AttentionType :=
  [full, slideChunk, slideChunk6, slideChunkAll, slideChunkHalfBlock, slideChunkAllBlock, slideChunkAllBlock2x1x1,
    slideChunkAllBlock2x0x0, slideChunkBottleneck, swin, slideWindow4x16x16]

end AttentionType

/-- the assertion that a key is one of `_attention_map` -/
def setAttentionType (attentionType : String) : Except PyErr AttentionType :=
  match AttentionType.all.find? (·.key = attentionType) with
  | some type => .ok type
  | none =>
    .error ⟨.other,
      "Expected attention_type: dict_keys([" ++ ", ".intercalate (AttentionType.all.map fun type => "'" ++ type.key ++ "'") ++
        "]). Got " ++ attentionType ++ "."⟩

/-- the values of `_attention_map`, for a model of so many blocks -/
def prepareAttentionMask (blocks : ℕ) (type : AttentionType) (g : Grid) : Except PyErr (List Masks) :=
  match type with
  | .full => .ok (fullAttentionMask blocks g)
  | .slideChunk => slidingChunkAttentionMask blocks {} g
  | .slideChunk6 => slidingChunkAttentionMask blocks { numSlideMask := 6 } g
  | .slideChunkAll => slidingChunkAttentionMask blocks { numSlideMask := blocks } g
  | .slideChunkHalfBlock => slidingChunkAttentionMask blocks { numSlideMask := blocks / 2, singleSlidePerBlock := false } g
  | .slideChunkAllBlock => slidingChunkAttentionMask blocks { numSlideMask := blocks, singleSlidePerBlock := false } g
  | .slideChunkAllBlock2x1x1 =>
    slidingChunkAttentionMask blocks { windowT := 2, numSlideMask := blocks, singleSlidePerBlock := false } g
  | .slideChunkAllBlock2x0x0 =>
    slidingChunkAttentionMask blocks
      { windowT := 2, windowH := 0, windowW := 0, numSlideMask := blocks, singleSlidePerBlock := false } g
  | .slideChunkBottleneck => .ok (slideChunkBottlenectAttentionMask blocks g)
  | .swin => .ok (swinAttentionMask blocks g)
  | .slideWindow4x16x16 => .ok (slidingWindowAttentionMask blocks g)

/-! ## Tables -/

/-- element j of block i, of n blocks of k -/
theorem block_lt {n k i j : ℕ} (hi : i < n) (hj : j < k) : i * k + j < n * k := by
  calc i * k + j < i * k + k := Nat.add_lt_add_left hj _
    _ = (i + 1) * k := by ring
    _ ≤ n * k := Nat.mul_le_mul_right k hi

theorem block_div {k i j : ℕ} (hj : j < k) : (i * k + j) / k = i := by
  rw [Nat.mul_comm, Nat.mul_add_div (by omega), Nat.div_eq_of_lt hj, Nat.add_zero]

section Tables

variable {g : Grid} {α : Type}

theorem length_finBlocks {n k : ℕ} {f : Fin n → List α} (hf : ∀ i, (f i).length = k) :
    ((List.finRange n).flatMap f).length = n * k := by
  rw [List.length_flatMap, List.map_congr_left fun i _ => hf i, List.map_const', List.sum_replicate, List.length_finRange,
    smul_eq_mul]

/-- element j of block i -/
theorem getElem?_finBlocks {n k : ℕ} {f : Fin n → List α} (hf : ∀ i, (f i).length = k) (i : Fin n) {j : ℕ} (hj : j < k) :
    ((List.finRange n).flatMap f)[i * k + j]? = (f i)[j]? := by
  induction n with
  | zero => exact i.elim0
  | succ n ih =>
    rw [List.finRange_succ, List.flatMap_cons, List.flatMap_map]
    cases i using Fin.cases with
    | zero =>
      rw [Fin.val_zero, zero_mul, zero_add]
      exact List.getElem?_append_left (by rwa [hf])
    | succ i =>
      have hpos : (i.succ : ℕ) * k + j - k = i * k + j := by
        rw [Fin.val_succ, Nat.succ_mul]
        omega
      rw [List.getElem?_append_right (by rw [hf, Fin.val_succ, Nat.succ_mul]; omega), hf, hpos]
      exact ih (fun i => hf i.succ) i

/-- **Tables.** The entry of a token is at its number. -/
theorem getElem?_flattened (f : Place g → α) (p : Place g) : (flattened g f)[p.index]? = some (f p) := by
  have hlt : ∀ {n k j : ℕ} (i : Fin n), j < k → i * k + j < n * k := fun i hj => block_lt i.isLt hj
  have hindex : p.index = p.nt * (g.nH * (g.nW * (g.T * (g.H * g.W)))) + (p.nh * (g.nW * (g.T * (g.H * g.W))) +
      (p.nw * (g.T * (g.H * g.W)) + (p.t * (g.H * g.W) + (p.h * g.W + p.w)))) := by
    rw [Place.index]
    ring
  have hw := p.w.isLt
  have hrow : ∀ row : Fin g.W → α, ((List.finRange g.W).map row).length = g.W := fun row => by simp
  rw [hindex, flattened,
    getElem?_finBlocks (fun _ => length_finBlocks fun _ => length_finBlocks fun _ => length_finBlocks fun _ =>
      length_finBlocks fun _ => hrow _) p.nt (hlt p.nh (hlt p.nw (hlt p.t (hlt p.h hw)))),
    getElem?_finBlocks (fun _ => length_finBlocks fun _ => length_finBlocks fun _ => length_finBlocks fun _ => hrow _) p.nh
      (hlt p.nw (hlt p.t (hlt p.h hw))),
    getElem?_finBlocks (fun _ => length_finBlocks fun _ => length_finBlocks fun _ => hrow _) p.nw (hlt p.t (hlt p.h hw)),
    getElem?_finBlocks (fun _ => length_finBlocks fun _ => hrow _) p.t (hlt p.h hw),
    getElem?_finBlocks (fun _ => hrow _) p.h hw]
  simp

theorem getD_flattened (f : Place g → α) (p : Place g) (d : α) : (flattened g f).getD p.index d = f p := by
  rw [List.getD_eq_getElem?_getD, getElem?_flattened, Option.getD_some]

/-- padding stands behind the tokens -/
theorem getD_pad (f : Place g → α) (p : Place g) (v d : α) : (pad g v (flattened g f)).getD p.index d = f p := by
  obtain ⟨hlt, -⟩ := List.getElem?_eq_some_iff.1 (getElem?_flattened f p)
  rw [pad, List.getD_eq_getElem?_getD, List.getElem?_append_left hlt, getElem?_flattened, Option.getD_some]

end Tables

/-! ## What the masks admit -/

section Admits

variable {g : Grid}

def admits (m : Option BlockMask) (p q : Place g) : Prop :=
  match m with
  | none => True
  | some mask => mask p.index q.index = true

/-- the windows of a mask by the axis -/
def window (windowT windowH windowW : ℕ) : Axis → ℕ
  | .t => windowT
  | .h => windowH
  | .w => windowW

/-- tables of coordinates -/
structure Ids.Lists (ids : Ids) (c : Place g → Axis → ℕ) : Prop where
  t : ∀ p : Place g, ids.t.getD p.index 0 = c p .t
  h : ∀ p : Place g, ids.h.getD p.index 0 = c p .h
  w : ∀ p : Place g, ids.w.getD p.index 0 = c p .w

theorem chunkIds_lists : (chunkIds g).Lists (Place.chunk (g := g)) where
  t p := getD_flattened (fun p => p.chunk .t) p 0
  h p := getD_flattened (fun p => p.chunk .h) p 0
  w p := getD_flattened (fun p => p.chunk .w) p 0

theorem chunkIds_pad_lists : ((chunkIds g).pad g).Lists (Place.chunk (g := g)) where
  t p := getD_pad (fun p => p.chunk .t) p 0 0
  h p := getD_pad (fun p => p.chunk .h) p 0 0
  w p := getD_pad (fun p => p.chunk .w) p 0 0

theorem positionIds_lists : (positionIds g).Lists (Place.position (g := g)) where
  t p := getD_flattened (fun p => p.position .t) p 0
  h p := getD_flattened (fun p => p.position .h) p 0
  w p := getD_flattened (fun p => p.position .w) p 0

/-- boxes around a token -/
theorem admits_slide {ids : Ids} {c : Place g → Axis → ℕ} (h : ids.Lists c) (windowT windowH windowW : ℕ) :
    admits (some (slidingWindowMaskMod ids windowT windowH windowW)) =
      Along c fun a => Near (window windowT windowH windowW a) := by
  ext p q
  simp only [admits, slidingWindowMaskMod, h.t, h.h, h.w, Bool.and_eq_true, decide_eq_true_eq]
  constructor
  · rintro ⟨⟨ht, hh⟩, hw⟩ (_ | _ | _)
    · exact ht
    · exact hh
    · exact hw
  · exact fun h => ⟨⟨h .t, h .h⟩, h .w⟩

/-- the same chunk -/
theorem admits_chunk {ids : Ids} {c : Place g → Axis → ℕ} (h : ids.Lists c) :
    admits (some (chunkMaskMod ids)) = Along c fun a => Near (window 0 0 0 a) := by
  ext p q
  simp only [admits, chunkMaskMod, h.t, h.h, h.w, Bool.and_eq_true, beq_iff_eq]
  constructor
  · rintro ⟨⟨ht, hh⟩, hw⟩ (_ | _ | _)
    · exact near_zero.2 ht
    · exact near_zero.2 hh
    · exact near_zero.2 hw
  · exact fun h => ⟨⟨near_zero.1 (h .t), near_zero.1 (h .h)⟩, near_zero.1 (h .w)⟩

/-- the number of a chunk says which one it is -/
theorem chunkNumber_inj {t h w t' h' w' : ℕ} (hh : h / g.H < g.nH) (hw : w / g.W < g.nW) (hh' : h' / g.H < g.nH)
    (hw' : w' / g.W < g.nW) : chunkNumber g t h w = chunkNumber g t' h' w' ↔
      t / g.T = t' / g.T ∧ h / g.H = h' / g.H ∧ w / g.W = w' / g.W := by
  have hradix : ∀ {n a b a' b' : ℕ}, b < n → b' < n → a * n + b = a' * n + b' → a = a' ∧ b = b' := by
    intro n a b a' b' hb hb' heq
    have ha : a = a' := by rw [← block_div (i := a) hb, heq, block_div hb']
    subst ha
    exact ⟨rfl, by omega⟩
  rw [chunkNumber, chunkNumber, Nat.cast_inj]
  constructor
  · intro heq
    obtain ⟨hrow, hcol⟩ := hradix hw hw' heq
    obtain ⟨hframe, hrow⟩ := hradix hh hh' hrow
    exact ⟨hframe, hrow, hcol⟩
  · rintro ⟨ht, hh, hw⟩
    rw [ht, hh, hw]

theorem Place.position_lt (p : Place g) (a : Axis) : p.position a < g.chunks a * g.tile a := by
  cases a
  · exact block_lt p.nt.isLt p.t.isLt
  · exact block_lt p.nh.isLt p.h.isLt
  · exact block_lt p.nw.isLt p.w.isLt

/-- a place on an axis lies in one of its chunks -/
theorem Grid.div_tile_lt {a : Axis} {x : ℕ} (hx : x < g.chunks a * g.tile a) : x / g.tile a < g.chunks a := by
  exact Nat.div_lt_of_lt_mul (by rwa [Nat.mul_comm] at hx)

theorem Grid.rolled_lt (p : Place g) (a : Axis) : g.rolled a (p.position a) < g.chunks a * g.tile a :=
  Nat.mod_lt _ ((Nat.zero_le _).trans_lt (p.position_lt a))

/-- the same chunk, in the layout of the whole clip -/
theorem admits_idToChunk : admits (some (sameMaskMod (pad g (-1) (idToChunk g)))) =
    Along (Place.position (g := g)) fun a x z => x / g.tile a = z / g.tile a := by
  ext p q
  have hlt : ∀ (p : Place g) a, p.position a / g.tile a < g.chunks a := fun p a => Grid.div_tile_lt (p.position_lt a)
  simp only [admits, sameMaskMod, idToChunk, getD_pad, beq_iff_eq]
  rw [chunkNumber_inj (hlt p .h) (hlt p .w) (hlt q .h) (hlt q .w)]
  constructor
  · rintro ⟨ht, hh, hw⟩ (_ | _ | _)
    · exact ht
    · exact hh
    · exact hw
  · exact fun h => ⟨h .t, h .h, h .w⟩

/-- the same chunk after rolling -/
theorem admits_idToSwin : admits (some (sameMaskMod (pad g (-2) (idToSwin g)))) =
    Along (Place.position (g := g)) fun a x z => g.rolled a x / g.tile a = g.rolled a z / g.tile a := by
  ext p q
  have hlt : ∀ (p : Place g) a, g.rolled a (p.position a) / g.tile a < g.chunks a :=
    fun p a => Grid.div_tile_lt (Grid.rolled_lt p a)
  simp only [admits, sameMaskMod, idToSwin, getD_pad, beq_iff_eq]
  rw [chunkNumber_inj (hlt p .h) (hlt p .w) (hlt q .h) (hlt q .w)]
  constructor
  · rintro ⟨ht, hh, hw⟩ (_ | _ | _)
    · exact ht
    · exact hh
    · exact hw
  · exact fun h => ⟨h .t, h .h, h .w⟩

end Admits

/-! ## The attentions of a model -/

/-- the masks of the two attentions of a block -/
def Masks.attentions : Masks → List (Option BlockMask)
  | one m => [m, m]
  | each m₀ m₁ => [m₀, m₁]

/-- the windows of all attentions, of a list of masks that are boxes -/
def Boxes {g : Grid} (c : Place g → Axis → ℕ) (masks : List Masks) (ws : List (Axis → ℕ)) : Prop :=
  (masks.flatMap Masks.attentions).map (admits (g := g)) = ws.map fun w => Along c fun a => Near (w a)

section Boxes

variable {g : Grid} {c : Place g → Axis → ℕ}

theorem Boxes.append {masks masks' : List Masks} {ws ws' : List (Axis → ℕ)} (h : Boxes c masks ws) (h' : Boxes c masks' ws') :
    Boxes c (masks ++ masks') (ws ++ ws') := by
  rw [Boxes, List.flatMap_append, List.map_append, h, h', List.map_append]

theorem Boxes.flatMap {α : Type} {l : List α} {masks : α → Masks} {ws : α → List (Axis → ℕ)}
    (h : ∀ i ∈ l, Boxes c [masks i] (ws i)) : Boxes c (l.map masks) (l.flatMap ws) := by
  induction l with
  | nil => rfl
  | cons i l ih =>
    have hi := h i List.mem_cons_self
    rw [List.map_cons, List.flatMap_cons, ← List.singleton_append]
    exact hi.append (ih fun j hj => h j (List.mem_cons_of_mem i hj))

theorem Boxes.one {m : Option BlockMask} {w : Axis → ℕ} (h : admits m = Along c fun a => Near (w a)) :
    Boxes c [.one m] [w, w] := by
  simp [Boxes, Masks.attentions, h]

theorem Boxes.each {m₀ m₁ : Option BlockMask} {w₀ w₁ : Axis → ℕ} (h₀ : admits m₀ = Along c fun a => Near (w₀ a))
    (h₁ : admits m₁ = Along c fun a => Near (w₁ a)) : Boxes c [.each m₀ m₁] [w₀, w₁] := by
  simp [Boxes, Masks.attentions, h₀, h₁]

theorem Boxes.replicate {m : Masks} {ws : List (Axis → ℕ)} (h : Boxes c [m] ws) (n : ℕ) :
    Boxes c (List.replicate n m) (List.replicate n ws).flatten := by
  have hall : Boxes c ((List.replicate n ()).map fun _ => m) ((List.replicate n ()).flatMap fun _ => ws) :=
    Boxes.flatMap fun _ _ => h
  simpa [List.flatMap] using hall

end Boxes

/-- the last of each s numbers from 1 on -/
theorem sum_last {s : ℕ} (hs : 0 < s) (n k : ℕ) :
    ((List.range' 1 (s * n)).map fun i => if i % s = 0 then k else 0).sum = n * k := by
  obtain ⟨s, rfl⟩ : ∃ r, s = r + 1 := ⟨s - 1, by omega⟩
  induction n with
  | zero => simp
  | succ n ih =>
    have hbefore : ((List.range' (1 + (s + 1) * n) s).map fun i => if i % (s + 1) = 0 then k else 0) =
        (List.range' (1 + (s + 1) * n) s).map fun _ => 0 := by
      refine List.map_congr_left fun i hi => if_neg fun h0 => ?_
      obtain ⟨j, hj, rfl⟩ := List.mem_range'.1 hi
      have hmod : (1 + (s + 1) * n + 1 * j) % (s + 1) = 1 + j := by
        rw [one_mul, show 1 + (s + 1) * n + j = 1 + j + (s + 1) * n by ring, Nat.add_mul_mod_self_left,
          Nat.mod_eq_of_lt (by omega)]
      omega
    have hlast : (1 + (s + 1) * n + s) % (s + 1) = 0 := by
      rw [show 1 + (s + 1) * n + s = (s + 1) * (n + 1) by ring, Nat.mul_mod_right]
    rw [Nat.mul_succ, ← List.range'_append_1, List.map_append, List.sum_append, ih, List.range'_1_concat, List.map_append,
      List.sum_append, hbefore]
    simp [hlast]
    ring

/-- two windows for each block -/
theorem Boxes.length {g : Grid} {c : Place g → Axis → ℕ} {masks : List Masks} {ws : List (Axis → ℕ)} (h : Boxes c masks ws) :
    ws.length = 2 * masks.length := by
  have hlen := congrArg List.length h
  rw [List.length_map, List.length_map, List.length_flatMap] at hlen
  have htwo : ∀ m : Masks, m.attentions.length = 2 := fun m => by cases m <;> rfl
  rw [← hlen, List.map_congr_left fun m _ => htwo m, List.map_const', List.sum_replicate, smul_eq_mul, Nat.mul_comm]

/-- how many attentions slide -/
def SlideArgs.slides (args : SlideArgs) (blocks : ℕ) : ℕ :=
  if blocks < args.numSlideMask then 0 else (if args.singleSlidePerBlock then 1 else 2) * args.numSlideMask

section Sums

variable {a : Axis}

theorem sum_flatMap {α : Type} (l : List α) (ws : α → List (Axis → ℕ)) :
    ((l.flatMap ws).map (· a)).sum = (l.map fun i => ((ws i).map (· a)).sum).sum := by
  rw [List.flatMap, List.map_flatten, List.sum_flatten, List.map_map, List.map_map]
  rfl

theorem sum_replicate (n : ℕ) (ws : List (Axis → ℕ)) :
    (((List.replicate n ws).flatten).map (· a)).sum = n * (ws.map (· a)).sum := by
  rw [List.map_flatten, List.sum_flatten, List.map_replicate, List.map_replicate, List.sum_replicate, smul_eq_mul]

end Sums

section Types

variable {g : Grid}

/-- **Sliding chunks.** There is a mask for each block; all windows together are those of the attentions that slide. -/
theorem slidingChunkAttentionMask_ok (g : Grid) (blocks : ℕ) {args : SlideArgs} (hn : args.numSlideMask ≠ 0) :
    ∃ masks ws, slidingChunkAttentionMask blocks args g = .ok masks ∧ masks.length = blocks ∧
      Boxes (Place.chunk (g := g)) masks ws ∧
      ∀ a, (ws.map (· a)).sum = args.slides blocks * window args.windowT args.windowH args.windowW a := by
  set n := args.numSlideMask with hargs
  set stride := blocks / n with hstride
  have hslide := admits_slide (g := g) chunkIds_pad_lists args.windowT args.windowH args.windowW
  have hchunk := admits_chunk (g := g) chunkIds_pad_lists
  refine ⟨_, (List.replicate (blocks % n) [window 0 0 0, window 0 0 0]).flatten ++
    (List.range' 1 (stride * n)).flatMap fun i => if i % stride = 0 then
      if args.singleSlidePerBlock then [window 0 0 0, window args.windowT args.windowH args.windowW]
      else [window args.windowT args.windowH args.windowW, window args.windowT args.windowH args.windowW]
    else [window 0 0 0, window 0 0 0], if_neg hn, ?_, ?_, fun a => ?_⟩
  · rw [List.length_append, List.length_replicate, List.length_map, List.length_range', ← hargs, ← hstride, Nat.mul_comm]
    exact Nat.mod_add_div blocks n
  · refine ((Boxes.one hchunk).replicate _).append (Boxes.flatMap fun i _ => ?_)
    split_ifs
    · exact Boxes.each hchunk hslide
    · exact Boxes.one hslide
    · exact Boxes.one hchunk
  · have hzero : window 0 0 0 a = 0 := by cases a <;> rfl
    set k := window args.windowT args.windowH args.windowW a with hk
    have hone : ∀ i, ((if i % stride = 0 then
          if args.singleSlidePerBlock then [window 0 0 0, window args.windowT args.windowH args.windowW]
          else [window args.windowT args.windowH args.windowW, window args.windowT args.windowH args.windowW]
        else [window 0 0 0, window 0 0 0]).map (· a)).sum =
          if i % stride = 0 then (if args.singleSlidePerBlock then 1 else 2) * k else 0 := by
      intro i
      split_ifs <;> simp [hzero, ← hk, Nat.two_mul]
    rw [List.map_append, List.sum_append, sum_replicate, sum_flatMap]
    simp only [hone]
    rw [List.map_cons, List.map_cons, List.map_nil, hzero, SlideArgs.slides, ← hargs]
    simp only [List.sum_cons, List.sum_nil, Nat.add_zero, Nat.mul_zero, Nat.zero_add]
    by_cases hfew : blocks < n
    · -- fewer blocks than masks that slide: the stride is 0, and nothing slides
      rw [if_pos hfew, hstride, Nat.div_eq_of_lt hfew]
      simp
    · rw [if_neg hfew, sum_last (Nat.div_pos (not_lt.1 hfew) (Nat.pos_of_ne_zero hn))]
      ring

theorem slideChunkBottlenect_ok (g : Grid) (blocks : ℕ) :
    (slideChunkBottlenectAttentionMask blocks g).length = blocks ∧
      ∃ ws, Boxes (Place.chunk (g := g)) (slideChunkBottlenectAttentionMask blocks g) ws ∧
        ∀ a, (ws.map (· a)).sum = 2 * (blocks - blocks * 4 / 5) * window 2 8 8 a + 2 * (blocks * 4 / 5) := by
  have hle : blocks * 4 / 5 ≤ blocks := Nat.div_le_of_le_mul (by omega)
  refine ⟨?_, _, ((Boxes.one (admits_slide chunkIds_lists 2 8 8)).replicate _).append
    ((Boxes.one (admits_slide chunkIds_lists 1 1 1)).replicate _) |>.append
      ((Boxes.one (admits_slide chunkIds_lists 2 8 8)).replicate _), fun a => ?_⟩
  · simp only [slideChunkBottlenectAttentionMask, List.length_append, List.length_replicate]
    omega
  · have hbn : window 1 1 1 a = 1 := by cases a <;> rfl
    simp only [List.map_append, List.sum_append, sum_replicate, List.map_cons, List.map_nil, List.sum_cons, List.sum_nil, hbn]
    generalize blocks - blocks * 4 / 5 = outer
    have hhalves : outer - outer / 2 + outer / 2 = outer := Nat.sub_add_cancel (Nat.div_le_self _ 2)
    calc _ = 2 * (outer - outer / 2 + outer / 2) * window 2 8 8 a + 2 * (blocks * 4 / 5) := by ring
      _ = 2 * outer * window 2 8 8 a + 2 * (blocks * 4 / 5) := by rw [hhalves]

theorem slidingWindow_ok (g : Grid) (blocks : ℕ) :
    ∃ ws, Boxes (Place.position (g := g)) (slidingWindowAttentionMask blocks g) ws ∧
      ∀ a, (ws.map (· a)).sum = 2 * blocks * window 4 16 16 a := by
  refine ⟨_, (Boxes.one (admits_slide positionIds_lists 4 16 16)).replicate blocks, fun a => ?_⟩
  rw [sum_replicate]
  simp only [List.map_cons, List.map_nil, List.sum_cons, List.sum_nil]
  ring

end Types

end Viduce.Transformer
