/-
The encoder of the keyframe mask (`models/msk_encoder.py`) and `_encode` of `MaskSpatialTiledEncoder3D` around it
(`models/precond.py`). Nothing is learned: a latent has four channels, one for each of the frames it stands for, and takes
the nearest pixel of each. The first frame of a window of 5 stands alone, four times.

- `encoder_ok`, `forward_ok`: one latent, and the latents of a clip.
- `encodeTile_ok`: windows of 5 frames give 2 latents each, and every channel of them is one pixel of one frame.
-/
import Mathlib.Tactic
import Viduce.Daemon.Tiled

namespace Viduce.Tiled

/-! ## Along time -/

/-- `x[:, :, a:b]` -/
def sliceTime (a b : ℕ) (x : Image Pixel) : Image Pixel :=
  ⟨[x.lead.getD 0 0, x.lead.getD 1 0, min b (x.lead.getD 2 0) - a], x.height, x.width, fun i j idx =>
    x.px i j [idx.getD 0 0, idx.getD 1 0, idx.getD 2 0 + a]⟩

/-- `x.repeat(1, 1, n, 1, 1)` -/
def repeatTime (n : ℕ) (x : Image Pixel) : Image Pixel :=
  ⟨[x.lead.getD 0 0, x.lead.getD 1 0, n * x.lead.getD 2 0], x.height, x.width, fun i j idx =>
    x.px i j [idx.getD 0 0, idx.getD 1 0, idx.getD 2 0 % x.lead.getD 2 0]⟩

/-- `torch.cat([x, y], 2)` -/
def catTime (x y : Image Pixel) : Except PyErr (Image Pixel) :=
  if x.lead.take 2 = y.lead.take 2 ∧ x.height = y.height ∧ x.width = y.width then
    .ok ⟨[x.lead.getD 0 0, x.lead.getD 1 0, x.lead.getD 2 0 + y.lead.getD 2 0], x.height, x.width, fun i j idx =>
      if idx.getD 2 0 < x.lead.getD 2 0 then x.px i j idx
      else y.px i j [idx.getD 0 0, idx.getD 1 0, idx.getD 2 0 - x.lead.getD 2 0]⟩
  else .error ⟨.runtimeError, "Sizes of tensors must match except in dimension 2"⟩

/-- `rearrange(x, "b 1 (t c) h w -> b c t h w", c=c)` -/
def packTime (c : ℕ) (x : Image Pixel) : Except PyErr (Image Pixel) :=
  if x.lead.getD 1 0 ≠ 1 ∨ x.lead.getD 2 0 % c ≠ 0 then .error (einopsError "b 1 (t c) h w -> b c t h w")
  else .ok ⟨[x.lead.getD 0 0, c, x.lead.getD 2 0 / c], x.height, x.width, fun i j idx =>
    x.px i j [idx.getD 0 0, 0, idx.getD 2 0 * c + idx.getD 1 0]⟩

/-- `rearrange(x, "b c (k t) h w -> (k b) c t h w", t=t)` -/
def splitWindows (t : ℕ) (x : Image Pixel) : Except PyErr (Image Pixel) :=
  match x.lead with
  | [b, c, frames] =>
    if t = 0 ∨ frames % t ≠ 0 then .error (einopsError "b c (k t) h w -> (k b) c t h w")
    else .ok ⟨[frames / t * b, c, t], x.height, x.width, fun i j idx =>
      x.px i j [idx.getD 0 0 % b, idx.getD 1 0, idx.getD 0 0 / b * t + idx.getD 2 0]⟩
  | _ => .error (einopsError "b c (k t) h w -> (k b) c t h w")

/-- `rearrange(x, "(k b) c t h w -> b c (k t) h w", b=b)` -/
def joinWindows (b : ℕ) (x : Image Pixel) : Except PyErr (Image Pixel) :=
  match x.lead with
  | [kb, c, t] =>
    if b = 0 ∨ kb % b ≠ 0 then .error (einopsError "(k b) c t h w -> b c (k t) h w")
    else .ok ⟨[b, c, kb / b * t], x.height, x.width, fun i j idx =>
      x.px i j [idx.getD 2 0 / t * b + idx.getD 0 0, idx.getD 1 0, idx.getD 2 0 % t]⟩
  | _ => .error (einopsError "(k b) c t h w -> b c (k t) h w")

/-- `F.interpolate(x, size=(t, h, w), mode="nearest")`, of the length it has -/
def interpolate (h w : ℕ) (x : Image Pixel) : Except PyErr (Image Pixel) :=
  if h = 0 ∨ w = 0 then .error ⟨.runtimeError, "Input and output sizes should be greater than 0"⟩
  else .ok ⟨x.lead, h, w, fun i j => x.px (i * x.height / h) (j * x.width / w)⟩

/-! ## The encoder -/

namespace MaskEncoder

def encoder (spatialCompressionRatio : ℕ) (x : Image Pixel) : Except PyErr (Image Pixel) :=
  let x := if x.lead.getD 2 0 = 1 then repeatTime 4 x else x
  if x.lead.getD 2 0 ≠ 4 then .error ⟨.other, ""⟩
  else if spatialCompressionRatio = 0 then .error ⟨.other, "integer division or modulo by zero"⟩
  else do
    let x ← interpolate (x.height / spatialCompressionRatio) (x.width / spatialCompressionRatio) x
    packTime 4 x

/-- `out` before the first iteration -/
def unbound : PyErr := ⟨.other, "cannot access local variable 'out'"⟩

/-- one iteration of the loop of `forward` -/
def step (spatialCompressionRatio : ℕ) (x : Image Pixel) (out : Option (Image Pixel)) (i : ℕ) :
    Except PyErr (Option (Image Pixel)) :=
  if i = 0 then do
    let out ← encoder spatialCompressionRatio (sliceTime 0 1 x)
    .ok (some out)
  else do
    let out' ← encoder spatialCompressionRatio (sliceTime (1 + 4 * (i - 1)) (1 + 4 * i) x)
    match out with
    | none => .error unbound
    | some out => do
      let out ← catTime out out'
      .ok (some out)

def forward (spatialCompressionRatio : ℕ) (x : Image Pixel) : Except PyErr (Image Pixel) := do
  let t : ℤ := x.lead.getD 2 0
  let iters := (1 + (t - 1) / 4).toNat
  let out ← forRange iters (step spatialCompressionRatio x) none
  match out with
  | none => .error unbound
  | some out => .ok out

end MaskEncoder

/-- `_encode` -/
def MaskSpatialTiledEncoder3D.encodeTile (spatialCompressionRatio : ℕ) (x : Image Pixel) : Except PyErr (Image Pixel) := do
  let bsz := x.lead.headD 0
  let x ← splitWindows 5 x
  let x ← MaskEncoder.forward spatialCompressionRatio x
  joinWindows bsz x

/-! ## One latent -/

/-- z has, in channel c of latent t, the frame `frame t c` of x, at the nearest pixels -/
structure Samples (r : ℕ) (frame : ℕ → ℕ → ℕ) (b n : ℕ) (x z : Image Pixel) : Prop where
  lead : z.lead = [b, 4, n]
  height : z.height = x.height / r
  width : z.width = x.width / r
  px : ∀ β < b, ∀ c < 4, ∀ t < n, ∀ i j,
    z.px i j [β, c, t] = x.px (i * x.height / (x.height / r)) (j * x.width / (x.width / r)) [β, 0, frame t c]

theorem Samples.congr {r b n : ℕ} {frame frame' : ℕ → ℕ → ℕ} {x x' z : Image Pixel} (h : Samples r frame b n x z)
    (hheight : x'.height = x.height) (hwidth : x'.width = x.width)
    (hpx : ∀ β < b, ∀ c < 4, ∀ t < n, ∀ i j, x.px i j [β, 0, frame t c] = x'.px i j [β, 0, frame' t c]) :
    Samples r frame' b n x' z where
  lead := h.lead
  height := by rw [hheight, h.height]
  width := by rw [hwidth, h.width]
  px β hβ c hc t ht i j := by rw [h.px β hβ c hc t ht, hheight, hwidth, hpx β hβ c hc t ht]

theorem encoder_four {r b : ℕ} {x : Image Pixel} (hlead : x.lead = [b, 1, 4]) (hr : 0 < r) (hheight : r ≤ x.height)
    (hwidth : r ≤ x.width) : ∃ z, MaskEncoder.encoder r x = .ok z ∧ Samples r (fun _ c => c) b 1 x z := by
  have hsize : ¬(x.height / r = 0 ∨ x.width / r = 0) := not_or.2
    ⟨(Nat.div_pos hheight hr).ne', (Nat.div_pos hwidth hr).ne'⟩
  have hfour : x.lead.getD 2 0 = 4 := by rw [hlead]; rfl
  have hone : x.lead.getD 2 0 ≠ 1 := by omega
  have hpack : ¬(x.lead.getD 1 0 ≠ 1 ∨ x.lead.getD 2 0 % 4 ≠ 0) := by rw [hlead]; simp
  rw [MaskEncoder.encoder, if_neg hone, if_neg (not_not.2 hfour), if_neg hr.ne', interpolate, if_neg hsize, ok_bind]
  refine ⟨_, if_neg hpack, ?_, rfl, rfl, fun β hβ c hc t ht i j => ?_⟩
  · simp [hlead]
  obtain rfl := Nat.lt_one_iff.1 ht
  change x.px _ _ [β, 0, 0 * 4 + c] = _
  rw [Nat.zero_mul, Nat.zero_add]

/-- **A latent.** It is made of one frame four times, or of four frames. -/
theorem encoder_ok {r b t : ℕ} {x : Image Pixel} (hlead : x.lead = [b, 1, t]) (ht : t = 1 ∨ t = 4) (hr : 0 < r)
    (hheight : r ≤ x.height) (hwidth : r ≤ x.width) :
    ∃ z, MaskEncoder.encoder r x = .ok z ∧ Samples r (fun _ c => c % t) b 1 x z := by
  rcases ht with rfl | rfl
  · have hfour : (repeatTime 4 x).lead = [b, 1, 4] := by rw [repeatTime, hlead]; rfl
    obtain ⟨z, hz, hsamples⟩ := encoder_four hfour hr hheight hwidth
    refine ⟨z, ?_, hsamples.congr rfl rfl fun β _ c _ t _ i j => ?_⟩
    · have hone : x.lead.getD 2 0 = 1 := by rw [hlead]; rfl
      have hmore : (repeatTime 4 x).lead.getD 2 0 ≠ 1 := by rw [hfour]; exact (by decide : 4 ≠ 1)
      rw [← hz, MaskEncoder.encoder, MaskEncoder.encoder, if_pos hone, if_neg hmore]
    · rw [repeatTime, hlead]
      rfl
  · obtain ⟨z, hz, hsamples⟩ := encoder_four hlead hr hheight hwidth
    refine ⟨z, hz, hsamples.congr rfl rfl fun β _ c hc t _ i j => ?_⟩
    rw [Nat.mod_eq_of_lt hc]

/-! ## The latents of a clip -/

/-- the frame of a window of 5 that is in channel c of latent t, or so on for longer ones -/
def codedFrame (t c : ℕ) : ℕ := if t = 0 then 0 else 1 + 4 * (t - 1) + c

theorem catTime_ok {b c t t' : ℕ} {x y : Image Pixel} (hx : x.lead = [b, c, t]) (hy : y.lead = [b, c, t'])
    (hheight : x.height = y.height) (hwidth : x.width = y.width) :
    ∃ z, catTime x y = .ok z ∧ z.lead = [b, c, t + t'] ∧ z.height = x.height ∧ z.width = x.width ∧ ∀ i j β κ τ,
      z.px i j [β, κ, τ] = if τ < t then x.px i j [β, κ, τ] else y.px i j [β, κ, τ - t] := by
  have hsame : x.lead.take 2 = y.lead.take 2 ∧ x.height = y.height ∧ x.width = y.width := by
    rw [hx, hy]
    exact ⟨rfl, hheight, hwidth⟩
  rw [catTime, if_pos hsame, hx, hy]
  exact ⟨_, rfl, rfl, rfl, rfl, fun _ _ _ _ _ => rfl⟩

/-- **The latents.** The first is of the first frame, each further one of 4 frames. -/
theorem forward_ok {r b n : ℕ} {x : Image Pixel} (hlead : x.lead = [b, 1, 1 + 4 * n]) (hr : 0 < r) (hheight : r ≤ x.height)
    (hwidth : r ≤ x.width) :
    ∃ z, MaskEncoder.forward r x = .ok z ∧ Samples r codedFrame b (n + 1) x z := by
  have hslice : ∀ a t, a + t ≤ 1 + 4 * n → (sliceTime a (a + t) x).lead = [b, 1, t] := by
    intro a t hat
    rw [sliceTime, hlead]
    change [b, 1, min (a + t) (1 + 4 * n) - a] = _
    rw [min_eq_left hat, Nat.add_sub_cancel_left]
  have hstep : ∀ i < n + 1, ∀ out, (i = 0 ∧ out = none ∨ ∃ z, out = some z ∧ Samples r codedFrame b i x z) →
      ∃ out', MaskEncoder.step r x out i = .ok out' ∧
        (i + 1 = 0 ∧ out' = none ∨ ∃ z, out' = some z ∧ Samples r codedFrame b (i + 1) x z) := by
    intro i hi out hout
    rcases Nat.eq_zero_or_pos i with rfl | hpos
    · obtain ⟨z, hz, hsamples⟩ := encoder_ok (hslice 0 1 (by omega)) (.inl rfl) hr hheight hwidth
      refine ⟨some z, ?_, .inr ⟨z, rfl, hsamples.congr rfl rfl fun β _ c _ t ht i j => ?_⟩⟩
      · rw [MaskEncoder.step, if_pos rfl, hz, ok_bind]
      · rw [Nat.lt_one_iff.1 ht, codedFrame, if_pos rfl, Nat.mod_one]
        rfl
    · obtain ⟨h0, -⟩ | ⟨out, rfl, hout⟩ := hout
      · omega
      have hnext : 1 + 4 * i = 1 + 4 * (i - 1) + 4 := by omega
      obtain ⟨z, hz, hsamples⟩ := encoder_ok (hslice (1 + 4 * (i - 1)) 4 (by omega)) (.inr rfl) hr hheight hwidth
      obtain ⟨w, hw, hwlead, hwheight, hwwidth, hwpx⟩ := catTime_ok hout.lead hsamples.lead
        (hout.height.trans hsamples.height.symm) (hout.width.trans hsamples.width.symm)
      refine ⟨some w, ?_, .inr ⟨w, rfl, hwlead, hwheight.trans hout.height, hwwidth.trans hout.width, ?_⟩⟩
      · rw [MaskEncoder.step, if_neg hpos.ne', hnext, hz, ok_bind]
        exact congrArg (· >>= fun out => Except.ok (some out)) hw
      · intro β hβ c hc t ht y y'
        rw [hwpx]
        split_ifs with hlt
        · exact hout.px β hβ c hc t hlt y y'
        · obtain rfl : t = i := by omega
          rw [Nat.sub_self, hsamples.px β hβ c hc 0 one_pos, Nat.mod_eq_of_lt hc, codedFrame, if_neg hpos.ne', sliceTime]
          change x.px _ _ [β, 0, c + (1 + 4 * (t - 1))] = _
          rw [Nat.add_comm c]
  obtain ⟨out, hloop, hout⟩ := forRange_upto (P := fun i out => i = 0 ∧ out = none ∨
      ∃ z, out = some z ∧ Samples r codedFrame b i x z)
    hstep (b := none) (.inl ⟨rfl, rfl⟩)
  obtain ⟨h0, -⟩ | ⟨z, rfl, hz⟩ := hout
  · omega
  refine ⟨z, ?_, hz⟩
  have hiters : (1 + (((x.lead.getD 2 0 : ℕ) : ℤ) - 1) / 4).toNat = n + 1 := by
    have hframes : x.lead.getD 2 0 = 1 + 4 * n := by rw [hlead]; rfl
    omega
  rw [MaskEncoder.forward]
  simp only [hiters, hloop, ok_bind]

/-! ## Windows -/

theorem splitWindows_ok {b c k t : ℕ} {x : Image Pixel} (ht : 0 < t) (hlead : x.lead = [b, c, k * t]) :
    ∃ y, splitWindows t x = .ok y ∧ y.lead = [k * b, c, t] ∧ y.height = x.height ∧ y.width = x.width ∧
      ∀ i j β κ τ, y.px i j [β, κ, τ] = x.px i j [β % b, κ, β / b * t + τ] := by
  rw [splitWindows, hlead]
  simp only [Nat.mul_mod_left, Nat.mul_div_cancel _ ht, ht.ne', ne_eq, not_true_eq_false, or_self, if_false]
  exact ⟨_, rfl, rfl, rfl, rfl, fun _ _ _ _ _ => rfl⟩

theorem joinWindows_ok {b c k t : ℕ} {x : Image Pixel} (hb : 0 < b) (hlead : x.lead = [k * b, c, t]) :
    ∃ y, joinWindows b x = .ok y ∧ y.lead = [b, c, k * t] ∧ y.height = x.height ∧ y.width = x.width ∧
      ∀ i j β κ τ, y.px i j [β, κ, τ] = x.px i j [τ / t * b + β, κ, τ % t] := by
  rw [joinWindows, hlead]
  simp only [Nat.mul_mod_left, Nat.mul_div_cancel _ hb, hb.ne', ne_eq, not_true_eq_false, or_self, if_false]
  exact ⟨_, rfl, rfl, rfl, rfl, fun _ _ _ _ _ => rfl⟩

/-- the frame of a clip that is in channel c of latent t -/
def maskFrame (t c : ℕ) : ℕ := t / 2 * 5 + codedFrame (t % 2) c

/-- **Windows.** Of each 5 frames there are two latents: one of the first frame, one of the other four. -/
theorem encodeTile_ok {r b k : ℕ} {x : Image Pixel} (hlead : x.lead = [b, 1, k * 5]) (hb : 0 < b) (hr : 0 < r)
    (hheight : r ≤ x.height) (hwidth : r ≤ x.width) :
    ∃ z, MaskSpatialTiledEncoder3D.encodeTile r x = .ok z ∧ Samples r maskFrame b (k * 2) x z := by
  obtain ⟨y, hy, hylead, hyheight, hywidth, hypx⟩ := splitWindows_ok (by decide) hlead
  obtain ⟨w, hw, hwsamples⟩ := forward_ok (n := 1) hylead hr (hyheight ▸ hheight) (hywidth ▸ hwidth)
  obtain ⟨z, hz, hzlead, hzheight, hzwidth, hzpx⟩ := joinWindows_ok hb hwsamples.lead
  refine ⟨z, ?_, hzlead, ?_, ?_, fun β hβ c hc t ht i j => ?_⟩
  · have hbsz : x.lead.headD 0 = b := by rw [hlead]; rfl
    rw [MaskSpatialTiledEncoder3D.encodeTile, hy, ok_bind, hw, ok_bind, hbsz, hz]
  · rw [hzheight, hwsamples.height, hyheight]
  · rw [hzwidth, hwsamples.width, hywidth]
  · have hwindow : t / (1 + 1) * b + β < k * b := by
      have hlt : t / (1 + 1) + 1 ≤ k := by omega
      have hmul := Nat.mul_le_mul_right b hlt
      rw [Nat.succ_mul] at hmul
      omega
    have hclip : (t / (1 + 1) * b + β) % b = β := by
      rw [Nat.add_comm, Nat.add_mul_mod_self_right, Nat.mod_eq_of_lt hβ]
    have hplace : (t / (1 + 1) * b + β) / b = t / (1 + 1) := by
      rw [Nat.add_comm, Nat.add_mul_div_right _ _ hb, Nat.div_eq_of_lt hβ, Nat.zero_add]
    rw [hzpx, hwsamples.px _ hwindow c hc _ (Nat.mod_lt t two_pos), hypx, hclip, hplace, hyheight, hywidth]
    rfl

end Viduce.Tiled
