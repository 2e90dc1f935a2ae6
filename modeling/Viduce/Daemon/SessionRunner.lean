/-
The stateful interpolation session (`server/session_runner.py`): conditioning clip, denoising loops, the five chunk
bodies and their dispatch.

Latents are lists of temporal tiles of an arbitrary type `V` with the addition and scaling the loops use; one `V` is
a whole tile (all its spatial tiles, channels and latent frames) at the session's geometry. Pixel clips are tensors
[t, c, h, w] (the batch axis of size 1 is dropped), their values exact rationals. The model is the parameter `Precond`:
its encoders, its velocity network and its VAE as functions.

Everything that can fail outside the session does so through `Env.fault`, one entry for each point of a call (`Stage`);
noise comes from `Env.randn`. Python raises without rolling back, so a body is a `Py` computation and keeps the latents
it has already assigned.

A cached tile carries the number of the call that emitted it and its position among the tiles of that call (`Tile`).
These two fields and the counter `calls` are bookkeeping for the statements; no computation reads them.
-/
import Mathlib.Tactic
import Viduce.Core.Py
import Viduce.Core.Tensor
import Viduce.Daemon.Temporal
import Viduce.Daemon.Chunks

namespace Viduce.SessionRunner

open Viduce.Chunks Viduce.Temporal

/-! ## The model and the environment of a call -/

/-- the points of a chunk call at which code outside the session can raise -/
inductive Stage where
  | readTensor
  | lqEncode
  | mskEncode
  | predictV (i : ℕ)
  | vaeDecode
  | writeTensor
deriving DecidableEq, Repr

/-- what the outside world does during one call: which point raises what, and the noise of each draw -/
structure Env (V : Type) where
  fault : Stage → Option PyErr
  /-- draw number, tile number -/
  randn : ℕ → ℕ → V

/-- a call out of the session: it raises what the environment says, else it returns -/
def Env.guard {V α : Type} (env : Env V) (st : Stage) (a : α) : Except PyErr α :=
  match env.fault st with
  | some e => .error e
  | none => .ok a

/-- the classes `vae_decode` tells apart -/
inductive Vae (V : Type) where
  | spatialTiledEncoder3D (decode : List V → Tensor ℚ)
  | spatialTiledConditionEncoder3D (ratio : ℕ) (decode : List V → Tensor ℚ → Tensor Bool → Tensor ℚ)
  | unsupported (typeName : String)

/-- the loaded model -/
structure Precond (V : Type) where
  lqEncode : Tensor ℚ → List V
  mskEncode : Tensor Bool → List V
  /-- `predict_v(xt, t, y, m)`, the time of each temporal tile in `t` -/
  predictV : List V → List ℚ → List V → List V → List V
  vae : Vae V
  /-- height and width of a tile's latents once its spatial tiles are laid out (`(nh h) (nw w)`) -/
  latentSize : V → ℕ × ℕ

/-- a tile of latents and, for the statements only, the call that emitted it and its place among that call's tiles -/
structure Tile (V : Type) where
  val : V
  call : ℕ
  idx : ℕ
deriving DecidableEq

/-- marks the tiles a call emits -/
def tag {V : Type} (call : ℕ) (xt : List V) : List (Tile V) := xt.mapIdx fun i v => ⟨v, call, i⟩

/-! ## The session object -/

/-- `VfiParameters` -/
structure VfiParameters where
  temporalScaleFactor : ℤ
  samplingSteps : ℤ
deriving DecidableEq, Repr

/-- `compute_schedule`, in exact arithmetic -/
def computeSchedule (numSteps : ℕ) (tShift : ℚ) : List ℚ :=
  (List.range (numSteps + 1)).map fun i =>
    let t : ℚ := 1 - i / numSteps
    tShift * t / (1 + (tShift - 1) * t)

structure SkipConcatSession (V : Type) extends Latents (Tile V) where
  numSteps : ℕ
  tShift : ℚ
  tCond : ℚ
  temporalSf : ℕ
  trainNumFrames : ℕ
  tileMinT : ℕ
  nTCond : ℕ
  ts : List ℚ
  /-- number of `interpolate_chunk` calls so far (bookkeeping) -/
  calls : ℕ

/-- `SkipConcatSession.__init__`. `VfiParameters` has no t_shift, t_cond, train_num_frames or tile_min_t, so each
`getattr` yields its default. -/
def SkipConcatSession.init (V : Type) (params : VfiParameters) : SkipConcatSession V :=
  let numSteps := if params.samplingSteps > 0 then params.samplingSteps.toNat else 10
  { toLatents := Latents.none
    numSteps := numSteps
    tShift := 1
    tCond := 1 / 10
    temporalSf := if params.temporalScaleFactor > 0 then params.temporalScaleFactor.toNat else 4
    trainNumFrames := 60
    tileMinT := 20
    nTCond := 1
    ts := computeSchedule numSteps 1
    calls := 0 }

variable {V : Type}

/-- `cleanup_latents` -/
def SkipConcatSession.cleanupLatents (s : SkipConcatSession V) : SkipConcatSession V :=
  { s with toLatents := Latents.none }

/-! ## The conditioning clip -/

/-- the keyframe mask of `_prepare_lq_and_msk`: every sf-th of the t * sf output positions, padded or cut to the
window -/
def keyframeMask (t sf numFrames : ℕ) : List Bool :=
  let msk := (List.range (t * sf)).map fun i => decide (i % sf = 0)
  (msk ++ List.replicate (numFrames - msk.length) false).take numFrames

/-- `.div(127.5).sub(1.0)` -/
def normalise (x : Tensor UInt8) : Tensor ℚ := x.map fun b => (b.toNat : ℚ) / (255 / 2) - 1

/-- `repeat(msk, "t -> 1 1 t h w")` -/
def repeatMask (msk : List Bool) (h w : ℕ) : Tensor Bool := ⟨[msk.length, h, w], fun idx => msk.getD (idx.headD 0) false⟩

/-- `_prepare_lq_and_msk`: the normalised clip, the mask repeated over the frame, and the frame's h and w -/
def SkipConcatSession.prepareLqAndMsk (self : SkipConcatSession V) (input : Tensor UInt8) (numFrames : ℕ) :
    Except PyErr (Tensor ℚ × Tensor Bool × ℕ × ℕ) :=
  match input.shape with
  | [t, _, h, w] => do
    let msk := keyframeMask t self.temporalSf numFrames
    let lq ← upsampleTemporal 0 input msk .nearest
    .ok (normalise lq, repeatMask msk h w, h, w)
  | shape => .error ⟨.valueError, s!"not enough values to unpack (expected 4, got {shape.length})"⟩

/-- `torch.randn_like(x)`, draw number d -/
def Env.randnLike {α : Type} (env : Env V) (d : ℕ) (x : List α) : List V := (List.range x.length).map (env.randn d)

/-- what the five bodies begin with: the clip, the mask and their encodings -/
structure Prelude (V : Type) where
  lq : Tensor ℚ
  msk : Tensor Bool
  h : ℕ
  w : ℕ
  y : List V
  m : List V

def SkipConcatSession.prelude (self : SkipConcatSession V) (M : Precond V) (env : Env V) (input : Tensor UInt8) :
    Except PyErr (Prelude V) := do
  let (lq, msk, h, w) ← self.prepareLqAndMsk input self.trainNumFrames
  let y ← env.guard .lqEncode (M.lqEncode lq)
  let m ← env.guard .mskEncode (M.mskEncode msk)
  .ok ⟨lq, msk, h, w, y, m⟩

/-! ## The denoising loops -/

section Loops

variable [Add V] [SMul ℚ V]

/-- `xt + vt * dt`, tile by tile -/
def axpy (dt : ℚ) (xt vt : List V) : List V := List.zipWith (fun x v => x + dt • v) xt vt

/-- one iteration of the Euler loops: the generated tiles `xt` stand between the conditioning tiles `pre` and `post`,
which stay at time t_cond; `keep` cuts the generated tiles' velocities out of the prediction -/
def SkipConcatSession.eulerStep (self : SkipConcatSession V) (M : Precond V) (env : Env V) (y m pre post : List V)
    (keep : List V → List V) (xt : List V) (i : ℕ) : Except PyErr (List V) := do
  let t := List.replicate pre.length self.tCond ++ List.replicate xt.length (self.ts.getD i 0) ++
    List.replicate post.length self.tCond
  let vt ← env.guard (.predictV i) (M.predictV (pre ++ xt ++ post) t y m)
  .ok (axpy (self.ts.getD (i + 1) 0 - self.ts.getD i 0) xt (keep vt))

/-- `for i in range(self.num_steps)` -/
def SkipConcatSession.euler (self : SkipConcatSession V) (M : Precond V) (env : Env V) (y m pre post : List V)
    (keep : List V → List V) (xt : List V) : Except PyErr (List V) :=
  forRange self.numSteps (self.eulerStep M env y m pre post keep) xt

/-- `_denoise_loop` -/
def SkipConcatSession.denoiseLoop (self : SkipConcatSession V) (M : Precond V) (env : Env V) (xt y m : List V) :
    Except PyErr (List V) :=
  self.euler M env y m [] [] id xt

/-- the loop of `_interpolate_concat` -/
def SkipConcatSession.concatLoop (self : SkipConcatSession V) (M : Precond V) (env : Env V) (nT : ℕ)
    (xtPrev xtCat xtSkip y m : List V) : Except PyErr (List V) :=
  self.euler M env y m xtPrev xtSkip (fun vt => (vt.take (nT - self.nTCond)).drop self.nTCond) xtCat

/-- the loop of `_interpolate_last` -/
def SkipConcatSession.lastLoop (self : SkipConcatSession V) (M : Precond V) (env : Env V)
    (xtPrev xtTail y m : List V) : Except PyErr (List V) :=
  self.euler M env y m xtPrev [] (fun vt => vt.drop self.nTCond) xtTail

/-- `x0 * (1 - t_cond) + randn_like(x0) * t_cond`, draw number d -/
def SkipConcatSession.renoise (self : SkipConcatSession V) (env : Env V) (d : ℕ) (x0 : List (Tile V)) : List V :=
  List.zipWith (fun x n => (1 - self.tCond) • x + self.tCond • n) (x0.map Tile.val) (env.randnLike d x0)

end Loops

/-! ## Decoding -/

/-- `F.pad(lq, (0, dw, 0, dh))` up to the given height and width; a negative pad crops -/
def padTo (h w : ℕ) (lq : Tensor ℚ) : Tensor ℚ where
  shape := lq.shape.take 2 ++ [h, w]
  get idx := if idx.getD 2 0 < lq.shape.getD 2 0 ∧ idx.getD 3 0 < lq.shape.getD 3 0 then lq.get idx else 0

/-- `vae_decode` -/
def vaeDecode (M : Precond V) (env : Env V) (xt : List V) (lq : Tensor ℚ) (msk : Tensor Bool) :
    Except PyErr (Tensor ℚ) :=
  match M.vae with
  | .spatialTiledEncoder3D decode => env.guard .vaeDecode (decode xt)
  | .spatialTiledConditionEncoder3D ratio decode =>
    let (latH, latW) := (xt.head?.map M.latentSize).getD (0, 0)
    let decodeH := latH * ratio
    let decodeW := latW * ratio
    -- the two rearranges "(nt t)" need the frames to split evenly over the tiles
    if xt.length = 0 ∨ lq.dim0 % xt.length ≠ 0 ∨ msk.dim0 % xt.length ≠ 0 then
      .error ⟨.other, s!"Shape mismatch, can't divide axis of length {lq.dim0} in chunks of {xt.length}"⟩
    else
      -- `msk[..., 0, 0]`, repeated over the decoded frame
      let msk0 := (List.range (msk.dim0)).map fun t => msk.get [t, 0, 0]
      env.guard .vaeDecode (decode xt (padTo decodeH decodeW lq) (repeatMask msk0 decodeH decodeW))
  | .unsupported typeName => .error ⟨.runtimeError, s!"Unsupported VAE type: {typeName}"⟩

/-- `[..., :h, :w]` -/
def crop (h w : ℕ) (x : Tensor ℚ) : Tensor ℚ where
  shape := x.shape.take 2 ++ [min h (x.shape.getD 2 0), min w (x.shape.getD 3 0)]
  get := x.get

/-- `.add(1.0).mul(127.5).clip(0, 255).byte()` -/
def toByte (q : ℚ) : UInt8 := UInt8.ofNat ⌊max 0 (min 255 ((q + 1) * (255 / 2)))⌋.toNat

/-- the tiles a body emits and the slices of the clip and the mask that go to the VAE with them -/
structure Denoised (V : Type) where
  xt : List V
  lqSub : Tensor ℚ
  mskSub : Tensor Bool
  h : ℕ
  w : ℕ

/-- the last two statements of every body: decode, crop, back to bytes -/
def Denoised.decode (g : Denoised V) (M : Precond V) (env : Env V) : Except PyErr (Tensor UInt8) := do
  let pred ← vaeDecode M env g.xt g.lqSub g.mskSub
  .ok ((crop g.h g.w pred).map toByte)

/-- what a call returns. The code returns the frames alone; the role and the emitted tiles are kept for the
statements. -/
structure Chunk (V : Type) where
  role : Role
  emitted : List (Tile V)
  frames : Tensor UInt8

/-! ## The five bodies -/

section Bodies

variable [Add V] [SMul ℚ V]

/-- `_interpolate_first` up to the assignment of x0_prev -/
def SkipConcatSession.firstLatents (self : SkipConcatSession V) (M : Precond V) (env : Env V)
    (input : Tensor UInt8) : Except PyErr (Denoised V) := do
  let nT := self.trainNumFrames / self.tileMinT
  let p ← self.prelude M env input
  let xt ← self.denoiseLoop M env (env.randnLike 0 p.y) p.y p.m
  .ok { xt := xt.take (nT - self.nTCond)
        lqSub := p.lq.narrow 0 ((nT - self.nTCond) * self.tileMinT)
        mskSub := p.msk.narrow 0 ((nT - self.nTCond) * self.tileMinT)
        h := p.h, w := p.w }

/-- `_interpolate_skip` up to the assignment of x0_skip and x0_prev_ -/
def SkipConcatSession.skipLatents (self : SkipConcatSession V) (M : Precond V) (env : Env V)
    (input : Tensor UInt8) : Except PyErr (Denoised V) := do
  let nT := self.trainNumFrames / self.tileMinT
  let p ← self.prelude M env input
  let xt ← self.denoiseLoop M env (env.randnLike 0 p.y) p.y p.m
  .ok { xt := (xt.take (nT - self.nTCond)).drop self.nTCond
        lqSub := p.lq.narrow (self.nTCond * self.tileMinT) ((nT - self.nTCond) * self.tileMinT)
        mskSub := p.msk.narrow (self.nTCond * self.tileMinT) ((nT - self.nTCond) * self.tileMinT)
        h := p.h, w := p.w }

/-- `_interpolate_concat` up to the assignment of the latents -/
def SkipConcatSession.concatLatents (self : SkipConcatSession V) (M : Precond V) (env : Env V)
    (input : Tensor UInt8) : Except PyErr (Denoised V) :=
  match self.x0Prev, self.x0Skip with
  | some x0Prev, some x0Skip => do
    let nT := self.trainNumFrames / self.tileMinT
    let p ← self.prelude M env input
    let xtCat := env.randnLike 0 ((p.y.take (nT - self.nTCond)).drop self.nTCond)
    let xtPrev := self.renoise env 1 x0Prev
    let xtSkip := self.renoise env 2 x0Skip
    let xt ← self.concatLoop M env nT xtPrev xtCat xtSkip p.y p.m
    .ok { xt := xt
          lqSub := p.lq.narrow (self.nTCond * self.tileMinT) ((nT - self.nTCond) * self.tileMinT)
          mskSub := p.msk.narrow (self.nTCond * self.tileMinT) ((nT - self.nTCond) * self.tileMinT)
          h := p.h, w := p.w }
  | _, _ => .error ⟨.runtimeError, "CHUNK_CONCAT called before x0_prev and x0_skip were cached"⟩

/-- `_interpolate_last` up to `cleanup_latents` -/
def SkipConcatSession.lastLatents (self : SkipConcatSession V) (M : Precond V) (env : Env V)
    (input : Tensor UInt8) : Except PyErr (Denoised V) := do
  let nT := self.trainNumFrames / self.tileMinT
  let p ← self.prelude M env input
  match self.x0Prev with
  | some x0Prev =>
    let xtTail := env.randnLike 0 (p.y.drop self.nTCond)
    let xtPrev := self.renoise env 1 x0Prev
    let xt ← self.lastLoop M env xtPrev xtTail p.y p.m
    .ok { xt := xt
          lqSub := p.lq.narrow (self.nTCond * self.tileMinT) (nT * self.tileMinT)
          mskSub := p.msk.narrow (self.nTCond * self.tileMinT) (nT * self.tileMinT)
          h := p.h, w := p.w }
  | none =>
    let xt ← self.denoiseLoop M env (env.randnLike 0 p.y) p.y p.m
    .ok { xt := xt, lqSub := p.lq, mskSub := p.msk, h := p.h, w := p.w }

/-- `_interpolate_standalone` up to the decode -/
def SkipConcatSession.standaloneLatents (self : SkipConcatSession V) (M : Precond V) (env : Env V)
    (input : Tensor UInt8) : Except PyErr (Denoised V) := do
  let p ← self.prelude M env input
  let xt ← self.denoiseLoop M env (env.randnLike 0 p.y) p.y p.m
  .ok { xt := xt, lqSub := p.lq, mskSub := p.msk, h := p.h, w := p.w }

/-- `_interpolate_first` -/
def interpolateFirst (M : Precond V) (env : Env V) (call : ℕ) (input : Tensor UInt8) :
    Py (SkipConcatSession V) (Chunk V) := do
  let self ← Py.get
  let g ← Py.ofExcept (self.firstLatents M env input)
  let xt := tag call g.xt
  Py.modify fun s => { s with x0Prev := some (xt.drop (xt.length - self.nTCond)) }
  let frames ← Py.ofExcept (g.decode M env)
  return ⟨.first, xt, frames⟩

/-- `_interpolate_skip` -/
def interpolateSkip (M : Precond V) (env : Env V) (call : ℕ) (input : Tensor UInt8) :
    Py (SkipConcatSession V) (Chunk V) := do
  let self ← Py.get
  let g ← Py.ofExcept (self.skipLatents M env input)
  let xt := tag call g.xt
  Py.modify fun s => { s with x0Skip := some (xt.take self.nTCond) }
  Py.modify fun s => { s with x0Prev_ := some (xt.drop (xt.length - self.nTCond)) }
  let frames ← Py.ofExcept (g.decode M env)
  return ⟨.skip, xt, frames⟩

/-- `_interpolate_concat` -/
def interpolateConcat (M : Precond V) (env : Env V) (call : ℕ) (input : Tensor UInt8) :
    Py (SkipConcatSession V) (Chunk V) := do
  let self ← Py.get
  let g ← Py.ofExcept (self.concatLatents M env input)
  Py.modify fun s => { s with x0Prev := s.x0Prev_ }
  Py.modify fun s => { s with x0Skip := none }
  Py.modify fun s => { s with x0Prev_ := none }
  let frames ← Py.ofExcept (g.decode M env)
  return ⟨.concat, tag call g.xt, frames⟩

/-- `_interpolate_last` -/
def interpolateLast (M : Precond V) (env : Env V) (call : ℕ) (input : Tensor UInt8) :
    Py (SkipConcatSession V) (Chunk V) := do
  let self ← Py.get
  let g ← Py.ofExcept (self.lastLatents M env input)
  Py.modify SkipConcatSession.cleanupLatents
  let frames ← Py.ofExcept (g.decode M env)
  return ⟨.last, tag call g.xt, frames⟩

/-- `_interpolate_standalone` -/
def interpolateStandalone (M : Precond V) (env : Env V) (call : ℕ) (input : Tensor UInt8) :
    Py (SkipConcatSession V) (Chunk V) := do
  let self ← Py.get
  let g ← Py.ofExcept (self.standaloneLatents M env input)
  let frames ← Py.ofExcept (g.decode M env)
  return ⟨.standalone, tag call g.xt, frames⟩

/-- the arguments of one call, and what the outside world does during it -/
structure ChunkCall (V : Type) where
  chunkIndex : ℕ
  input : Tensor UInt8
  isLast : Bool
  env : Env V

/-- `SkipConcatSession.interpolate_chunk` -/
def interpolateChunk (M : Precond V) (c : ChunkCall V) : Py (SkipConcatSession V) (Chunk V) := do
  let self ← Py.get
  let call := self.calls
  Py.modify fun s => { s with calls := s.calls + 1 }
  if c.chunkIndex = 0 then
    if c.isLast then interpolateStandalone M c.env call c.input
    else interpolateFirst M c.env call c.input
  else
    if c.isLast then interpolateLast M c.env call c.input
    else if self.x0Skip.isNone then interpolateSkip M c.env call c.input
    else interpolateConcat M c.env call c.input

/-- one call seen from outside: the state it leaves behind -/
def step (M : Precond V) (s : SkipConcatSession V) (c : ChunkCall V) : SkipConcatSession V :=
  ((interpolateChunk M c).run s).2

end Bodies

end Viduce.SessionRunner
