/-
What one chunk call can do. `interpolateChunk_run` says it once: the role the dispatch picks either fails while
denoising, and then only the call counter moves, or it denoises, commits its latents, and decodes. Every result about
the session is derived from it and from the three facts below, and none unfolds a body again.

- `denoise_ok`: the denoising part succeeds when no point in it raises and CONCAT's check passes, and what it hands to
  the VAE has the number of tiles of its role (`tiles`) and 20 frames of conditioning for each.
- `denoise_error`: it fails otherwise.
- `decode_shape`: decoding gives 20 frames for each emitted tile.

Premises on the model, for frames of one shape: a 60-frame clip encodes to three temporal tiles and the velocity of a
stack of tiles is a stack of the same height (`Precond.Encodes`), and the VAE is one of the two supported classes and
decodes each tile to 20 frames when it is given as many frames of the clip and the mask (`Precond.Ok`). The mock model
meets them for frames of every shape, the tiled model for its own (`TiledSession.precond_ok`).
-/
import Mathlib.Tactic
import Viduce.Core.Run
import Viduce.Daemon.SessionRunner

namespace Viduce.SessionRunner

open Viduce.Chunks Viduce.Temporal

variable {V : Type}

/-! ## Premises -/

/-- what the denoising part needs of the model, on clips of frames of this shape -/
structure Precond.Encodes (M : Precond V) (frame : List ℕ) : Prop where
  lq_tiles : ∀ lq : Tensor ℚ, lq.shape = 60 :: frame → (M.lqEncode lq).length = 3
  predict_tiles : ∀ xt t y m, (M.predictV xt t y m).length = xt.length

/-- the VAE decodes each tile to 20 frames of `vc` channels, `vh` by `vw`. One of the conditional class is given 20 frames
of the clip and the mask for each tile, padded to the size it decodes to. -/
def Vae.Decodes (latentSize : V → ℕ × ℕ) (frame : List ℕ) (vc vh vw : ℕ) : Vae V → Prop
  | .spatialTiledEncoder3D decode => ∀ xt, xt ≠ [] → (decode xt).shape = [20 * xt.length, vc, vh, vw]
  | .spatialTiledConditionEncoder3D ratio decode => ∀ v xt (lq : Tensor ℚ) (msk : Tensor Bool),
      lq.shape = 20 * (xt.length + 1) :: (frame.take 1 ++ [(latentSize v).1 * ratio, (latentSize v).2 * ratio]) →
      msk.shape = [20 * (xt.length + 1), (latentSize v).1 * ratio, (latentSize v).2 * ratio] →
      (decode (v :: xt) lq msk).shape = [20 * (xt.length + 1), vc, vh, vw]
  | .unsupported _ => False

/-- the model's contract on clips of frames of this shape -/
structure Precond.Ok (M : Precond V) (frame : List ℕ) (vc vh vw : ℕ) : Prop extends M.Encodes frame where
  decodes : M.vae.Decodes M.latentSize frame vc vh vw

/-- the fields `__init__` fixes or normalises; no call changes them -/
structure Configured (s : SkipConcatSession V) : Prop where
  train : s.trainNumFrames = 60
  tile : s.tileMinT = 20
  cond : s.nTCond = 1
  sf_pos : 0 < s.temporalSf
  steps_pos : 0 < s.numSteps

theorem configured_init (V : Type) (params : VfiParameters) : Configured (SkipConcatSession.init V params) := by
  refine ⟨rfl, rfl, rfl, ?_, ?_⟩ <;> simp only [SkipConcatSession.init] <;> split_ifs <;> omega

/-- a staged clip: at least one frame of some geometry, as `read_tensor` yields -/
def Staged (x : Tensor UInt8) (h w : ℕ) : Prop := ∃ t c, x.shape = [t, c, h, w] ∧ 0 < t

/-- no point of the denoising part raises -/
structure Env.Denoises (env : Env V) (numSteps : ℕ) : Prop where
  lq : env.fault .lqEncode = none
  msk : env.fault .mskEncode = none
  predict : ∀ i < numSteps, env.fault (.predictV i) = none

theorem guard_ok {α : Type} {env : Env V} {st : Stage} (h : env.fault st = none) (a : α) :
    env.guard st a = .ok a := by
  simp [Env.guard, h]

theorem guard_error {α : Type} {env : Env V} {st : Stage} {e : PyErr} (h : env.fault st = some e) (a : α) :
    env.guard st a = .error e := by
  simp [Env.guard, h]

/-! ## The conditioning clip -/

@[simp] theorem keyframeMask_length (t sf n : ℕ) : (keyframeMask t sf n).length = n := by
  simp only [keyframeMask, List.length_take, List.length_append, List.length_replicate]
  omega

/-- every set position is a multiple of sf below t * sf -/
theorem keyframeMask_set {t sf n i : ℕ} (h : (keyframeMask t sf n)[i]? = some true) : i < t * sf ∧ sf ∣ i := by
  simp only [keyframeMask, List.getElem?_take] at h
  split_ifs at h
  rcases Nat.lt_or_ge i (t * sf) with hlt | hge
  · rw [List.getElem?_append_left (by simpa using hlt)] at h
    simp only [List.getElem?_map, List.getElem?_range hlt, Option.map_some, Option.some.injEq,
      decide_eq_true_eq] at h
    exact ⟨hlt, Nat.dvd_of_mod_eq_zero h⟩
  · rw [List.getElem?_append_right (by simpa using hge)] at h
    simp [List.getElem?_replicate] at h

/-- position 0 is set as soon as there is a frame and a window -/
theorem zero_mem_keptIndices {t sf n : ℕ} (ht : 0 < t) (hsf : 0 < sf) (hn : 0 < n) :
    0 ∈ keptIndices (keyframeMask t sf n) := by
  have h0 : 0 < t * sf := Nat.mul_pos ht hsf
  rw [mem_keptIndices, keyframeMask, List.getElem?_take_of_lt hn, List.getElem?_append_left (by simpa using h0)]
  simp [List.getElem?_range h0]

/-- the mask of t frames sets at most t positions: distinct ones are distinct multiples of sf below t * sf -/
theorem keptIndices_keyframeMask_le {t sf : ℕ} (n : ℕ) (hsf : 0 < sf) :
    (keptIndices (keyframeMask t sf n)).length ≤ t := by
  have hk : ∀ i ∈ keptIndices (keyframeMask t sf n), i < t * sf ∧ sf ∣ i :=
    fun i hi => keyframeMask_set (mem_keptIndices.1 hi)
  have hnd : ((keptIndices (keyframeMask t sf n)).map (· / sf)).Nodup := by
    refine List.Nodup.map_on ?_ (List.nodup_range.filter _)
    intro i hi j hj hij
    obtain ⟨a, rfl⟩ := (hk i hi).2
    obtain ⟨b, rfl⟩ := (hk j hj).2
    rw [Nat.mul_div_cancel_left a hsf, Nat.mul_div_cancel_left b hsf] at hij
    rw [hij]
  have hsub : (keptIndices (keyframeMask t sf n)).map (· / sf) ⊆ List.range t := by
    intro q hq
    obtain ⟨i, hi, rfl⟩ := List.mem_map.1 hq
    exact List.mem_range.2 (Nat.div_lt_of_lt_mul (Nat.mul_comm t sf ▸ (hk i hi).1))
  simpa using (List.subperm_of_subset hnd hsub).length_le

/-- the clip of an input: one frame and one mask entry for each position of the window -/
theorem prepareLqAndMsk_shape {s : SkipConcatSession V} (hs : Configured s) {x : Tensor UInt8} {t ch h w n : ℕ}
    (hshape : x.shape = [t, ch, h, w]) (ht : 0 < t) (hn : 0 < n) :
    ∃ lq msk, s.prepareLqAndMsk x n = .ok (lq, msk, h, w) ∧ lq.shape = [n, ch, h, w] ∧ msk.shape = [n, h, w] := by
  set k := keyframeMask t s.temporalSf n with hk
  have hne : keptIndices k ≠ [] := List.ne_nil_of_mem (zero_mem_keptIndices ht hs.sf_pos hn)
  have hle : (keptIndices k).length ≤ t := keptIndices_keyframeMask_le n hs.sf_pos
  have hup := upsampleTemporal_nearest (0 : UInt8) x hne (by simpa [Tensor.dim0, hshape] using hle)
  refine ⟨normalise (x.indexSelect (nearestKept k)), repeatMask k h w, ?_, ?_, ?_⟩
  · simp only [SkipConcatSession.prepareLqAndMsk, hshape, ← hk, hup]
    rfl
  · simp [normalise, Tensor.map, Tensor.indexSelect, nearestKept, hk, hshape]
  · simp [repeatMask, hk]

/-! ## The prelude -/

/-- what every body begins with, unless an encoder raises -/
theorem prelude_ok {M : Precond V} {ch h w : ℕ} (hM : M.Encodes [ch, h, w]) {s : SkipConcatSession V}
    (hs : Configured s) {env : Env V} (hlq : env.fault .lqEncode = none) (hmsk : env.fault .mskEncode = none)
    {x : Tensor UInt8} {t : ℕ} (hshape : x.shape = [t, ch, h, w]) (ht : 0 < t) :
    ∃ p, s.prelude M env x = .ok p ∧ p.y.length = 3 ∧ p.lq.shape = [60, ch, h, w] ∧ p.msk.shape = [60, h, w] ∧
      p.h = h ∧ p.w = w ∧ p.y = M.lqEncode p.lq ∧ p.m = M.mskEncode p.msk := by
  obtain ⟨lq, msk, hp, h1, h2⟩ := prepareLqAndMsk_shape hs hshape ht (by decide : 0 < 60)
  refine ⟨⟨lq, msk, h, w, M.lqEncode lq, M.mskEncode msk⟩, ?_, hM.lq_tiles lq h1, h1, h2, rfl, rfl, rfl, rfl⟩
  simp only [SkipConcatSession.prelude, hs.train, hp, guard_ok hlq, guard_ok hmsk]
  rfl

theorem prelude_error {M : Precond V} {s : SkipConcatSession V} {env : Env V} {x : Tensor UInt8} {p : Prelude V}
    (h : s.prelude M env x = .ok p) : env.fault .lqEncode = none ∧ env.fault .mskEncode = none := by
  unfold SkipConcatSession.prelude at h
  cases hp : s.prepareLqAndMsk x s.trainNumFrames with
  | error e => rw [hp] at h; cases h
  | ok q =>
    rw [hp] at h
    cases h1 : env.fault .lqEncode with
    | some e => simp only [guard_error h1] at h; cases h
    | none =>
      cases h2 : env.fault .mskEncode with
      | some e => simp only [guard_ok h1, guard_error h2] at h; cases h
      | none => exact ⟨rfl, rfl⟩

/-! ## Decoding -/

/-- n tiles with 20 frames of conditioning for each -/
structure Denoised.Fits (g : Denoised V) (n h w : ℕ) : Prop where
  xt : g.xt.length = n
  lq : g.lqSub.dim0 = 20 * n
  msk : g.mskSub.dim0 = 20 * n
  h : g.h = h
  w : g.w = w

/-- the VAE decodes a stack of tiles it is handed the right frames with, unless it raises -/
theorem vaeDecode_ok {M : Precond V} {frame : List ℕ} {vc vh vw : ℕ} (hM : M.Ok frame vc vh vw) {xt : List V}
    (hxt : xt ≠ []) {lq : Tensor ℚ} (hlq : lq.shape = 20 * xt.length :: frame) {msk : Tensor Bool}
    (hmsk : msk.dim0 = 20 * xt.length) {env : Env V} (hv : env.fault .vaeDecode = none) :
    ∃ pred, vaeDecode M env xt lq msk = .ok pred ∧ pred.shape = [20 * xt.length, vc, vh, vw] := by
  obtain ⟨v, rest, rfl⟩ := List.exists_cons_of_ne_nil hxt
  have hdecodes := hM.decodes
  unfold vaeDecode
  cases hvae : M.vae with
  | spatialTiledEncoder3D decode =>
    rw [hvae] at hdecodes
    exact ⟨decode (v :: rest), guard_ok hv _, hdecodes _ hxt⟩
  | spatialTiledConditionEncoder3D ratio decode =>
    rw [hvae] at hdecodes
    have hdim : lq.dim0 = 20 * (v :: rest).length := by rw [Tensor.dim0, hlq]; rfl
    have hsplit : ¬ ((v :: rest).length = 0 ∨ lq.dim0 % (v :: rest).length ≠ 0 ∨ msk.dim0 % (v :: rest).length ≠ 0) := by
      rw [hdim, hmsk]
      simp
    simp only [if_neg hsplit]
    refine ⟨_, guard_ok hv _, hdecodes v rest _ _ ?_ ?_⟩
    · rw [padTo, hlq]
      rfl
    · rw [repeatMask, List.length_map, List.length_range, hmsk]
      rfl
  | unsupported name =>
    rw [hvae] at hdecodes
    exact hdecodes.elim

/-- decoding fitting latents returns, with 20 frames for each tile, unless the VAE raises -/
theorem decode_shape {M : Precond V} {ch h w vc vh vw : ℕ} (hM : M.Ok [ch, h, w] vc vh vw) {g : Denoised V} {n : ℕ}
    (hg : g.Fits n h w) (htail : g.lqSub.shape.tail = [ch, h, w]) (hn : 0 < n) {env : Env V}
    (hv : env.fault .vaeDecode = none) :
    ∃ f, g.decode M env = .ok f ∧ f.shape = [20 * n, vc, min h vh, min w vw] := by
  have hxt : g.xt ≠ [] := List.ne_nil_of_length_pos (hg.xt ▸ hn)
  have hlq : g.lqSub.shape = 20 * g.xt.length :: [ch, h, w] := by rw [Tensor.shape_of_tail htail, hg.lq, hg.xt]
  obtain ⟨pred, hpred, hshape⟩ := vaeDecode_ok hM hxt hlq (hg.msk.trans (by rw [hg.xt])) hv
  refine ⟨(crop g.h g.w pred).map toByte, by simp [Denoised.decode, hpred], ?_⟩
  simp [Tensor.map, crop, hshape, hg.h, hg.w, hg.xt]

/-- decoding raises when the VAE does -/
theorem decode_fault {M : Precond V} {g : Denoised V} {env : Env V} {f : Tensor UInt8}
    (h : g.decode M env = .ok f) : env.fault .vaeDecode = none := by
  obtain ⟨pred, hpred, -⟩ := bind_eq_ok.1 h
  cases hv : env.fault .vaeDecode with
  | none => rfl
  | some e =>
    unfold vaeDecode at hpred
    split at hpred
    · simp [guard_error hv] at hpred
    · split_ifs at hpred
      simp [guard_error hv] at hpred
    · cases hpred

/-! ## The loops -/

section Bodies

variable [Add V] [SMul ℚ V]

/-- the loop runs to its end when no step of it raises, and keeps the number of generated tiles -/
theorem euler_ok {M : Precond V} (hM : ∀ xt t y m, (M.predictV xt t y m).length = xt.length) (s : SkipConcatSession V)
    {env : Env V} (hp : ∀ i < s.numSteps, env.fault (.predictV i) = none) (y m pre post : List V)
    (keep : List V → List V) (n : ℕ)
    (hkeep : ∀ vt, vt.length = pre.length + n + post.length → (keep vt).length = n) (xt : List V)
    (hxt : xt.length = n) : ∃ xt', s.euler M env y m pre post keep xt = .ok xt' ∧ xt'.length = n := by
  refine forRange_ok (P := fun xt : List V => xt.length = n) (fun i hi xt hlen => ?_) hxt
  simp only [SkipConcatSession.eulerStep, guard_ok (hp i hi)]
  refine ⟨_, rfl, ?_⟩
  rw [axpy, List.length_zipWith, hlen, hkeep _ (by simp [hM, hlen]; omega), min_self]

/-- the loop over the whole window -/
theorem denoiseLoop_ok {M : Precond V} (hM : ∀ xt t y m, (M.predictV xt t y m).length = xt.length)
    (s : SkipConcatSession V) {env : Env V} (hp : ∀ i < s.numSteps, env.fault (.predictV i) = none) (y m xt : List V) :
    ∃ xt', s.denoiseLoop M env xt y m = .ok xt' ∧ xt'.length = xt.length := by
  refine euler_ok hM s hp y m [] [] id xt.length (fun vt hvt => ?_) xt rfl
  simpa using hvt

/-- CONCAT's loop, between the conditioning tiles in front and behind -/
theorem concatLoop_ok {M : Precond V} (hM : ∀ xt t y m, (M.predictV xt t y m).length = xt.length)
    (s : SkipConcatSession V) {env : Env V} (hp : ∀ i < s.numSteps, env.fault (.predictV i) = none) {nT : ℕ}
    {xtPrev xtCat : List V} (hprev : xtPrev.length = s.nTCond) (hcat : s.nTCond + xtCat.length = nT - s.nTCond)
    (xtSkip y m : List V) :
    ∃ xt', s.concatLoop M env nT xtPrev xtCat xtSkip y m = .ok xt' ∧ xt'.length = xtCat.length := by
  refine euler_ok hM s hp y m xtPrev xtSkip _ xtCat.length (fun vt hvt => ?_) xtCat rfl
  rw [List.length_drop, List.length_take, hvt, hprev, ← hcat, Nat.min_eq_left (Nat.le_add_right _ _),
    Nat.add_sub_cancel_left]

/-- LAST's loop, behind the conditioning tiles -/
theorem lastLoop_ok {M : Precond V} (hM : ∀ xt t y m, (M.predictV xt t y m).length = xt.length) (s : SkipConcatSession V)
    {env : Env V} (hp : ∀ i < s.numSteps, env.fault (.predictV i) = none) {xtPrev : List V}
    (hprev : xtPrev.length = s.nTCond) (xtTail y m : List V) :
    ∃ xt', s.lastLoop M env xtPrev xtTail y m = .ok xt' ∧ xt'.length = xtTail.length := by
  refine euler_ok hM s hp y m xtPrev [] _ xtTail.length (fun vt hvt => ?_) xtTail rfl
  rw [List.length_drop, hvt, hprev, List.length_nil, Nat.add_zero, Nat.add_sub_cancel_left]

/-- a loop that ran to its end met no fault -/
theorem euler_error {M : Precond V} {s : SkipConcatSession V} {env : Env V} {y m pre post xt xt' : List V}
    {keep : List V → List V} (h : s.euler M env y m pre post keep xt = .ok xt') :
    ∀ i < s.numSteps, env.fault (.predictV i) = none := by
  intro i hi
  obtain ⟨a, a', ha⟩ := forRange_all h i hi
  cases hf : env.fault (.predictV i) with
  | none => rfl
  | some e => simp only [SkipConcatSession.eulerStep, guard_error hf] at ha; cases ha

theorem renoise_length (s : SkipConcatSession V) (env : Env V) (d : ℕ) (x0 : List (Tile V)) :
    (s.renoise env d x0).length = x0.length := by
  simp [SkipConcatSession.renoise, Env.randnLike]

/-! ## Denoising -/

/-- the part of a body before it touches the latents -/
def SkipConcatSession.denoise (self : SkipConcatSession V) (M : Precond V) (env : Env V) (input : Tensor UInt8) :
    Role → Except PyErr (Denoised V)
  | .standalone => self.standaloneLatents M env input
  | .first => self.firstLatents M env input
  | .skip => self.skipLatents M env input
  | .concat => self.concatLatents M env input
  | .last => self.lastLatents M env input

/-- **What denoising yields.** When nothing in it raises and the role's check passes, the denoising part succeeds and
hands over the role's number of tiles, with the frames of the clip that are theirs. -/
theorem denoise_ok {M : Precond V} {ch h w : ℕ} (hM : M.Encodes [ch, h, w]) {s : SkipConcatSession V}
    (hs : Configured s) (hl : Sized s.toLatents) {env : Env V} (henv : env.Denoises s.numSteps) {x : Tensor UInt8} {t : ℕ}
    (hshape : x.shape = [t, ch, h, w]) (ht : 0 < t) {r : Role} (hr : admitted r s.toLatents = true) :
    ∃ g, s.denoise M env x r = .ok g ∧ g.Fits (tiles r s.toLatents) h w ∧ g.lqSub.shape.tail = [ch, h, w] := by
  obtain ⟨p, hp, hy, hlqshape, hmskshape, hh, hw, -⟩ := prelude_ok hM hs henv.lq henv.msk hshape ht
  have hlq : p.lq.dim0 = 60 := by rw [Tensor.dim0, hlqshape]; rfl
  have hmsk : p.msk.dim0 = 60 := by rw [Tensor.dim0, hmskshape]; rfl
  have htail : p.lq.shape.tail = [ch, h, w] := by rw [hlqshape]; rfl
  -- the three roles that denoise the whole window
  obtain ⟨xt, hxt, hwhole⟩ := denoiseLoop_ok hM.predict_tiles s henv.predict p.y p.m (env.randnLike 0 p.y)
  have hlen : xt.length = 3 := by simpa [Env.randnLike, hy] using hwhole
  cases r with
  | standalone =>
    refine ⟨_, by simp only [SkipConcatSession.denoise, SkipConcatSession.standaloneLatents, hp, hxt, ok_bind]; rfl, ?_⟩
    exact ⟨⟨hlen, hlq, hmsk, hh, hw⟩, htail⟩
  | first =>
    refine ⟨_, by simp only [SkipConcatSession.denoise, SkipConcatSession.firstLatents, hp, hxt, ok_bind]; rfl, ?_⟩
    refine ⟨?_, htail⟩
    constructor <;> simp [tiles, hs.train, hs.tile, hs.cond, hlen, hlq, hmsk, hh, hw]
  | skip =>
    refine ⟨_, by simp only [SkipConcatSession.denoise, SkipConcatSession.skipLatents, hp, hxt, ok_bind]; rfl, ?_⟩
    refine ⟨?_, htail⟩
    constructor <;> simp [tiles, hs.train, hs.tile, hs.cond, hlen, hlq, hmsk, hh, hw]
  | concat =>
    obtain ⟨hprev, hskip⟩ : s.x0Prev.isSome = true ∧ s.x0Skip.isSome = true := by simpa [admitted] using hr
    obtain ⟨x0Prev, eprev⟩ := Option.isSome_iff_exists.1 hprev
    obtain ⟨x0Skip, eskip⟩ := Option.isSome_iff_exists.1 hskip
    have hp1 : x0Prev.length = 1 := hl.prev _ eprev
    have hcat : (env.randnLike 0 ((p.y.take (s.trainNumFrames / s.tileMinT - s.nTCond)).drop s.nTCond)).length = 1 := by
      simp [Env.randnLike, hs.train, hs.tile, hs.cond, hy]
    have hprev1 : (s.renoise env 1 x0Prev).length = s.nTCond := by rw [renoise_length, hp1, hs.cond]
    have hwindow : s.nTCond + 1 = s.trainNumFrames / s.tileMinT - s.nTCond := by rw [hs.train, hs.tile, hs.cond]
    rw [← hcat] at hwindow
    obtain ⟨xc, hxc, hmiddle⟩ := concatLoop_ok hM.predict_tiles s henv.predict hprev1 hwindow (s.renoise env 2 x0Skip) p.y p.m
    have hlenc : xc.length = 1 := hmiddle.trans hcat
    refine ⟨_, by simp only [SkipConcatSession.denoise, SkipConcatSession.concatLatents, eprev, eskip, hp, hxc, ok_bind]; rfl,
      ?_⟩
    refine ⟨?_, htail⟩
    constructor <;> simp [tiles, hs.train, hs.tile, hs.cond, hlenc, hlq, hmsk, hh, hw]
  | last =>
    cases eprev : s.x0Prev with
    | none =>
      refine ⟨_, by simp only [SkipConcatSession.denoise, SkipConcatSession.lastLatents, eprev, hp, hxt, ok_bind]; rfl, ?_⟩
      refine ⟨?_, htail⟩
      constructor <;> simp [tiles, eprev, hlen, hlq, hmsk, hh, hw]
    | some x0Prev =>
      have hp1 : x0Prev.length = 1 := hl.prev _ eprev
      have hprev1 : (s.renoise env 1 x0Prev).length = s.nTCond := by rw [renoise_length, hp1, hs.cond]
      obtain ⟨xl, hxl, hrest⟩ := lastLoop_ok hM.predict_tiles s henv.predict hprev1
        (env.randnLike 0 (p.y.drop s.nTCond)) p.y p.m
      have hlenl : xl.length = 2 := by simpa [Env.randnLike, hs.cond, hy] using hrest
      refine ⟨_, by simp only [SkipConcatSession.denoise, SkipConcatSession.lastLatents, eprev, hp, hxl, ok_bind]; rfl, ?_⟩
      refine ⟨?_, htail⟩
      constructor <;> simp [tiles, eprev, hs.train, hs.tile, hs.cond, hlenl, hlq, hmsk, hh, hw]

/-- a body that got through its denoising met no fault there, and CONCAT's check passed -/
theorem denoise_error {M : Precond V} {s : SkipConcatSession V} {env : Env V} {x : Tensor UInt8} {r : Role}
    {g : Denoised V} (h : s.denoise M env x r = .ok g) :
    env.Denoises s.numSteps ∧ admitted r s.toLatents = true := by
  cases r with
  | standalone =>
    simp only [SkipConcatSession.denoise, SkipConcatSession.standaloneLatents, bind_eq_ok] at h
    obtain ⟨p, hp, xt, hxt, -⟩ := h
    exact ⟨⟨(prelude_error hp).1, (prelude_error hp).2, euler_error hxt⟩, rfl⟩
  | first =>
    simp only [SkipConcatSession.denoise, SkipConcatSession.firstLatents, bind_eq_ok] at h
    obtain ⟨p, hp, xt, hxt, -⟩ := h
    exact ⟨⟨(prelude_error hp).1, (prelude_error hp).2, euler_error hxt⟩, rfl⟩
  | skip =>
    simp only [SkipConcatSession.denoise, SkipConcatSession.skipLatents, bind_eq_ok] at h
    obtain ⟨p, hp, xt, hxt, -⟩ := h
    exact ⟨⟨(prelude_error hp).1, (prelude_error hp).2, euler_error hxt⟩, rfl⟩
  | concat =>
    simp only [SkipConcatSession.denoise, SkipConcatSession.concatLatents] at h
    split at h
    · rename_i a b ha hb
      simp only [bind_eq_ok] at h
      obtain ⟨p, hp, xt, hxt, -⟩ := h
      exact ⟨⟨(prelude_error hp).1, (prelude_error hp).2, euler_error hxt⟩, by simp [admitted, ha, hb]⟩
    · cases h
  | last =>
    simp only [SkipConcatSession.denoise, SkipConcatSession.lastLatents, bind_eq_ok] at h
    obtain ⟨p, hp, h⟩ := h
    split at h
    all_goals
      obtain ⟨xt, hxt, -⟩ := bind_eq_ok.1 h
      exact ⟨⟨(prelude_error hp).1, (prelude_error hp).2, euler_error hxt⟩, rfl⟩

/-! ## One call -/

/-- the body of a role -/
def body (M : Precond V) (env : Env V) (call : ℕ) (input : Tensor UInt8) : Role → Py (SkipConcatSession V) (Chunk V)
  | .standalone => interpolateStandalone M env call input
  | .first => interpolateFirst M env call input
  | .skip => interpolateSkip M env call input
  | .concat => interpolateConcat M env call input
  | .last => interpolateLast M env call input

/-- a body that fails to denoise leaves the session as it was -/
theorem body_run_error {M : Precond V} {env : Env V} {call : ℕ} {x : Tensor UInt8} {r : Role}
    {s : SkipConcatSession V} {e : PyErr} (h : s.denoise M env x r = .error e) :
    (body M env call x r).run s = (.error e, s) := by
  cases r <;>
    simp only [SkipConcatSession.denoise] at h <;>
    simp only [body, interpolateStandalone, interpolateFirst, interpolateSkip, interpolateConcat, interpolateLast,
      Py.run_bind_get, Py.run_bind_ofExcept, h]

/-- a body that denoises commits, then decodes -/
theorem body_run_ok {M : Precond V} {env : Env V} {call : ℕ} {x : Tensor UInt8} {r : Role}
    {s : SkipConcatSession V} {g : Denoised V} (h : s.denoise M env x r = .ok g) :
    (body M env call x r).run s =
      ((g.decode M env).map fun f => ⟨r, tag call g.xt, f⟩,
        { s with toLatents := commit s.nTCond r s.toLatents (tag call g.xt) }) := by
  cases r <;>
    simp only [SkipConcatSession.denoise] at h <;>
    simp only [body, interpolateStandalone, interpolateFirst, interpolateSkip, interpolateConcat, interpolateLast,
      Py.run_bind_get, Py.run_bind_modify, Py.run_bind_ofExcept, h] <;>
    cases g.decode M env <;> rfl

/-- the nested conditionals of `interpolate_chunk` pick the dispatched body -/
theorem interpolateChunk_body (M : Precond V) (c : ChunkCall V) (s : SkipConcatSession V) :
    (interpolateChunk M c).run s =
      (body M c.env s.calls c.input (dispatch s.toLatents c.chunkIndex c.isLast)).run
        { s with calls := s.calls + 1 } := by
  simp only [interpolateChunk, Py.run_bind_get, Py.run_bind_modify, dispatch]
  split_ifs <;> rfl

/-- **What a chunk call does.** The dispatched role denoises; if that fails, nothing but the call counter has moved; if
it succeeds, the role commits its latents and only then decodes. -/
theorem interpolateChunk_run (M : Precond V) (c : ChunkCall V) (s : SkipConcatSession V) :
    (interpolateChunk M c).run s =
      match s.denoise M c.env c.input (dispatch s.toLatents c.chunkIndex c.isLast) with
      | .error e => (.error e, { s with calls := s.calls + 1 })
      | .ok g =>
        ((g.decode M c.env).map fun f => ⟨dispatch s.toLatents c.chunkIndex c.isLast, tag s.calls g.xt, f⟩,
          { s with
            toLatents := commit s.nTCond (dispatch s.toLatents c.chunkIndex c.isLast) s.toLatents (tag s.calls g.xt)
            calls := s.calls + 1 }) := by
  rw [interpolateChunk_body]
  cases hg : s.denoise M c.env c.input (dispatch s.toLatents c.chunkIndex c.isLast) with
  | error e => exact body_run_error (s := { s with calls := s.calls + 1 }) hg
  | ok g => exact body_run_ok (s := { s with calls := s.calls + 1 }) hg

end Bodies

/-! ## Runs of calls -/

/-- the role a call plays in a state -/
def role (s : SkipConcatSession V) (c : ChunkCall V) : Role := dispatch s.toLatents c.chunkIndex c.isLast

/-- the call gets past its denoising, and so assigns its latents -/
def Commits (s : SkipConcatSession V) (c : ChunkCall V) : Prop :=
  c.env.Denoises s.numSteps ∧ admitted (role s c) s.toLatents = true

/-- what holds in every state of a session: its configuration, one tile in each cached latent, x0_skip and x0_prev_
together, every cached tile from an earlier call -/
structure Wf (s : SkipConcatSession V) : Prop where
  config : Configured s
  sized : Sized s.toLatents
  paired : Paired s.toLatents
  born : s.toLatents.All fun t => t.call < s.calls

theorem wf_init (params : VfiParameters) : Wf (SkipConcatSession.init V params) :=
  ⟨configured_init V params, sized_none, paired_none, all_none _⟩

theorem tag_length (call : ℕ) (xt : List V) : (tag call xt).length = xt.length := by simp [tag]

theorem tag_call {call : ℕ} {xt : List V} {t : Tile V} (h : t ∈ tag call xt) : t.call = call := by
  obtain ⟨i, hi, rfl⟩ := List.mem_mapIdx.1 h
  rfl

section Steps

variable [Add V] [SMul ℚ V]

/-- **One call, seen from outside.** Either it commits its role with as many tiles as the role emits, or it leaves all
but the call counter as it was. -/
theorem step_cases {M : Precond V} {ch h w : ℕ} (hM : M.Encodes [ch, h, w]) {s : SkipConcatSession V} (hs : Wf s)
    {c : ChunkCall V} {t : ℕ} (hshape : c.input.shape = [t, ch, h, w]) (ht : 0 < t) :
    (Commits s c ∧ ∃ g : Denoised V, s.denoise M c.env c.input (role s c) = .ok g ∧
      g.Fits (tiles (role s c) s.toLatents) h w ∧ g.lqSub.shape.tail = [ch, h, w] ∧
      (interpolateChunk M c).run s =
        ((g.decode M c.env).map fun f => ⟨role s c, tag s.calls g.xt, f⟩,
          { s with toLatents := commit 1 (role s c) s.toLatents (tag s.calls g.xt), calls := s.calls + 1 })) ∨
    (¬ Commits s c ∧ ∃ e, (interpolateChunk M c).run s = (.error e, { s with calls := s.calls + 1 })) := by
  have hrun := interpolateChunk_run M c s
  by_cases hc : Commits s c
  · obtain ⟨g, hg, hfit, htail⟩ := denoise_ok hM hs.config hs.sized hc.1 hshape ht hc.2
    have hcommit : commit s.nTCond (role s c) s.toLatents (tag s.calls g.xt) =
        commit 1 (role s c) s.toLatents (tag s.calls g.xt) := by rw [hs.config.cond]
    refine Or.inl ⟨hc, g, hg, hfit, htail, ?_⟩
    rw [role] at hg
    rw [hg] at hrun
    rw [← hcommit]
    exact hrun
  · refine Or.inr ⟨hc, ?_⟩
    cases hg : s.denoise M c.env c.input (dispatch s.toLatents c.chunkIndex c.isLast) with
    | ok g => exact absurd (denoise_error hg) hc
    | error e => rw [hg] at hrun; exact ⟨e, hrun⟩

/-- a call that commits and whose VAE decode meets no fault returns, with 20 frames for each tile it emits -/
theorem call_ok {M : Precond V} {s : SkipConcatSession V} (hs : Wf s) {c : ChunkCall V} {h w vc vh vw : ℕ}
    (hM : M.Ok c.input.shape.tail vc vh vw) (hx : Staged c.input h w) (hc : Commits s c)
    (hv : c.env.fault .vaeDecode = none) :
    ∃ xt f, (interpolateChunk M c).run s = (.ok ⟨role s c, tag s.calls xt, f⟩,
        { s with toLatents := commit 1 (role s c) s.toLatents (tag s.calls xt), calls := s.calls + 1 }) ∧
      xt.length = tiles (role s c) s.toLatents ∧
      f.shape = [20 * tiles (role s c) s.toLatents, vc, min h vh, min w vw] := by
  obtain ⟨t, ch, hshape, ht⟩ := hx
  rw [hshape] at hM
  rcases step_cases hM.toEncodes hs hshape ht with ⟨-, g, -, hg, htail, hrun⟩ | ⟨hnc, -⟩
  · obtain ⟨f, hf, hfshape⟩ := decode_shape hM hg htail (tiles_pos _ _) hv
    exact ⟨g.xt, f, by rw [hrun, hf]; rfl, hg.xt, hfshape⟩
  · exact absurd hc hnc

theorem step_wf {M : Precond V} {s : SkipConcatSession V} (hs : Wf s) {c : ChunkCall V} {h w : ℕ}
    (hM : M.Encodes c.input.shape.tail) (hx : Staged c.input h w) : Wf (step M s c) := by
  obtain ⟨t, ch, hshape, ht⟩ := hx
  rw [hshape] at hM
  have hborn : s.toLatents.All fun t => t.call < s.calls + 1 := hs.born.mono fun t ht => by omega
  rcases step_cases hM hs hshape ht with ⟨-, g, -, hg, -, hrun⟩ | ⟨-, e, hrun⟩
  · have hpos : 0 < (tag s.calls g.xt).length := by rw [tag_length, hg.xt]; exact tiles_pos _ _
    have hnew : ∀ t ∈ tag s.calls g.xt, t.call < s.calls + 1 := fun t ht => by rw [tag_call ht]; omega
    rw [step, hrun]
    exact ⟨⟨hs.config.train, hs.config.tile, hs.config.cond, hs.config.sf_pos, hs.config.steps_pos⟩,
      commit_sized _ hpos hs.sized, commit_paired _ _ _ _ hs.paired, commit_all _ _ hnew hborn⟩
  · rw [step, hrun]
    exact ⟨⟨hs.config.train, hs.config.tile, hs.config.cond, hs.config.sf_pos, hs.config.steps_pos⟩,
      hs.sized, hs.paired, hborn⟩

end Steps

end Viduce.SessionRunner
