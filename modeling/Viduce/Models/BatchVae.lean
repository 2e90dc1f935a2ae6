/-
`WanVAE_` (`models/vae2_1.py`) on batches of clips. The caches hold tensors of the batch it was called on last.

- `WanVAE.encode_each`, `WanVAE.decode_each`: a call on a batch does to each clip what a call on that clip alone does, whatever
  the caches held before either of them.
- `toTensor_ok`, `clips_eq`: a list of clips as a tensor, and back.
- `encodeBatch_ok`, `decodeBatch_ok`: so a list of clips of one shape is coded clip by clip.
-/
import Mathlib.Tactic
import Viduce.Models.Batch
import Viduce.Models.WanVae

namespace Viduce.Vae

open Viduce.Streaming
open Feature

variable {F : Type} [Feature F] {n : ℕ}

/-! ## The autoencoder -/

/-- the autoencoder on batches of n + 1 clips -/
def WanVAE.each (n : ℕ) (vae : WanVAE F) : WanVAE (Batch n F) where
  encoder := vae.encoder.each n
  conv1 := vae.conv1.each n
  conv2 := vae.conv2.each n
  decoder := vae.decoder.each n

def Scale.each (n : ℕ) {z : ℕ} (scale : Scale F z) : Scale (Batch n F) z := ⟨scale.apply.each n, scale.undo.each n⟩

/-- clip j of what the caches hold -/
structure CachesOf (j : Fin (n + 1)) (s : Caches (Batch n F)) (t : Caches F) : Prop where
  decoder : SlotsOf j ⟨s.featMap, s.convIdx⟩ ⟨t.featMap, t.convIdx⟩
  encoder : SlotsOf j ⟨s.encFeatMap, s.encConvIdx⟩ ⟨t.encFeatMap, t.encConvIdx⟩

/-- an autoencoder with two halves of latents and layers that are proper -/
structure WanVAE.Proper (vae : WanVAE F) : Prop where
  encoder : vae.encoder.Proper
  decoder : vae.decoder.Proper
  halves : ∃ c, vae.conv1.outChannels = 2 * c
  conv1 : 0 < vae.conv1.kernel

section Autoencoder

variable {vae : WanVAE F} {z : ℕ} (scale : Scale F z) {j : Fin (n + 1)} {x : List (Batch n F)} {y : List F}

theorem WanVAE.cleared_each (vae : WanVAE F) (j : Fin (n + 1)) : CachesOf j (vae.each n).cleared vae.cleared := by
  simp only [WanVAE.cleared, WanVAE.each, Encoder3d.countConv3d_each, Decoder3d.countConv3d_each]
  exact ⟨SlotsAgree.fresh _ _ _, SlotsAgree.fresh _ _ _⟩

theorem WanVAE.clearCache_each (vae : WanVAE F) (j : Fin (n + 1)) :
    InStep (CachesOf j) Eq (vae.each n).clearCache vae.clearCache := InStep.modify fun _ _ _ => vae.cleared_each j

theorem Caches.encoding_each {G H : Type} {R : G → H → Prop} {m : Py (Slots (CacheItem (Batch n F))) G}
    {m' : Py (Slots (CacheItem F)) H} (h : InStep (SlotsOf j) R m m') :
    InStep (CachesOf j) R (Caches.encoding m) (Caches.encoding m') :=
  h.zoom (fun _ _ hst => hst.encoder) fun _ _ _ _ hcd hst => ⟨hst.decoder, hcd⟩

theorem Caches.decoding_each {G H : Type} {R : G → H → Prop} {m : Py (Slots (CacheItem (Batch n F))) G}
    {m' : Py (Slots (CacheItem F)) H} (h : InStep (SlotsOf j) R m m') :
    InStep (CachesOf j) R (Caches.decoding m) (Caches.decoding m') :=
  h.zoom (fun _ _ hst => hst.decoder) fun _ _ _ _ hcd hst => ⟨hcd, hst.encoder⟩

theorem ClipOf.encodeChunk (h : ClipOf j x y) (i : ℕ) : ClipOf j (WanVAE.encodeChunk x i) (WanVAE.encodeChunk y i) := by
  unfold WanVAE.encodeChunk
  split_ifs
  · exact h.take 1
  · exact (h.drop _).take 4

theorem ClipOf.decodeChunk (h : ClipOf j x y) (i : ℕ) : ClipOf j (WanVAE.decodeChunk x i) (WanVAE.decodeChunk y i) :=
  (h.drop i).take 1

/-- `.chunk(2, dim=1)[0]` -/
theorem ClipOf.firstHalf (h : ClipOf j x y) {c : ℕ} (hy : ∀ b ∈ y, (dim b).channels = 2 * c) :
    ClipOf j (x.map fun a => (halves a).1) (y.map fun b => (halves b).1) := by
  obtain ⟨d, hd⟩ := h.sized
  obtain rfl := h.clip
  refine ⟨?_, ⟨c, d.height, d.width⟩, List.forall_mem_map.2 fun a ha i => ?_⟩
  · rw [List.map_map, List.map_map]
    rfl
  · have hch := hy (a j) (List.mem_map_of_mem ha)
    rw [hd a ha] at hch
    exact (dim_halves (a i) c d.height d.width (by rw [hd a ha, ← hch])).1

/-- **Encoding a batch.** -/
theorem WanVAE.encode_inStep (hvae : vae.Proper) (h : ClipOf j x y) :
    InStep (CachesOf j) (ClipOf j) ((vae.each n).encode (scale.each n) x) (vae.encode scale y) := by
  obtain ⟨c, hc⟩ := hvae.halves
  refine (vae.clearCache_each j).bind ?_
  intro _ _ _
  simp only [h.length]
  refine (Caches.encoding_each (InStep.feed (fun i _ => Encoder3d.cached_each hvae.encoder (h.encodeChunk i))
    fun _ _ _ _ h h' => h.cat h')).bind fun o o' ho => ?_
  cases ho with
  | none => exact .raise _
  | some hout =>
    refine (InStep.ofExcept (hout.conv3d vae.conv1 .none)).bind ?_
    intro u v huv
    have hmu := huv.toClipOf.firstHalf fun b hb => (huv.channels hvae.conv1 b hb).trans hc
    refine (InStep.ofExcept (hmu.frameFn scale.apply)).bind ?_
    intro mu mu' hmu'
    exact (vae.clearCache_each j).bind fun _ _ _ => .pure hmu'

/-- **Decoding a batch.** -/
theorem WanVAE.decode_inStep (hvae : vae.Proper) (h : ClipOf j x y) :
    InStep (CachesOf j) (ClipOf j) ((vae.each n).decode (scale.each n) x) (vae.decode scale y) := by
  refine (vae.clearCache_each j).bind ?_
  intro _ _ _
  refine (InStep.ofExcept (h.frameFn scale.undo)).bind ?_
  intro u v huv
  simp only [huv.length]
  refine (InStep.ofExcept (huv.forward vae.conv2 .none)).bind ?_
  intro u' v' huv'
  refine (Caches.decoding_each (InStep.feed (fun i _ => Decoder3d.cached_each hvae.decoder (huv'.decodeChunk i))
    fun _ _ _ _ h h' => h.cat h')).bind fun o o' ho => ?_
  cases ho with
  | none => exact .raise _
  | some hout => exact (vae.clearCache_each j).bind fun _ _ _ => .pure hout

end Autoencoder

/-! ## What the constructor builds -/

theorem Fits.proper {layers : List (Layer F)} {d d' : Dim} {m m' r : ℕ} (h : Fits layers d d' m m' r) :
    ∀ l ∈ layers, l.Proper := by
  induction h with
  | nil d m => simp
  | residual weights i o h w hm _ ih => exact List.forall_mem_cons.2 ⟨trivial, ih⟩
  | up weights c t hm hh hw _ ih =>
    refine List.forall_mem_cons.2 ⟨?_, ih⟩
    cases t with
    | false => exact trivial
    | true => exact ⟨rfl, Nat.succ_pos 2⟩
  | down weights c t hm hh hw _ ih =>
    refine List.forall_mem_cons.2 ⟨?_, ih⟩
    cases t <;> exact trivial

theorem WanVAE.Built.proper {cfg : NetConfig} (enc : cfg.EncoderFits) (dec : cfg.forDecoder.DecoderFits)
    {weights : VaeWeights F}
    {vae : WanVAE F} (built : Built cfg weights vae) : vae.Proper := by
  obtain ⟨_, _, _, he, hencoder⟩ := Encoder3d.built enc.forEncoder weights.encoder Nat.one_pos le_rfl le_rfl
  obtain ⟨_, _, _, hd, hdecoder⟩ := Decoder3d.built dec weights.decoder Nat.one_pos le_rfl le_rfl
  have hesame := Except.ok.inj (he.symm.trans built.encoder)
  have hdsame := Except.ok.inj (hd.symm.trans built.decoder)
  refine ⟨?_, ?_, ⟨cfg.zDim, ?_⟩, ?_⟩
  · rw [← hesame]
    exact hencoder.proper
  · rw [← hdsame]
    exact hdecoder.proper
  · rw [built.conv1, mul_comm]
  · rw [built.conv1]
    exact Nat.one_pos

/-! ## Calls on a batch -/

section Calls

variable {vae : WanVAE F} {z : ℕ}

/-- a call does not depend on what the caches held -/
theorem WanVAE.encode_any (vae : WanVAE F) (scale : Scale F z) (x : List F) (s t : Caches F) :
    (vae.encode scale x).run s = (vae.encode scale x).run t := rfl

theorem WanVAE.decode_any (vae : WanVAE F) (scale : Scale F z) (x : List F) (s t : Caches F) :
    (vae.decode scale x).run s = (vae.decode scale x).run t := rfl

variable {j : Fin (n + 1)} {x : List (Batch n F)} {y : List F}

/-- **Encoding a batch.** Each of its clips becomes what it becomes alone, or all of them raise what one alone raises. -/
theorem WanVAE.encode_each (hvae : vae.Proper) (scale : Scale F z) (h : ClipOf j x y) (s : Caches (Batch n F)) (t : Caches F) :
    Agree (ClipOf j) (((vae.each n).encode (scale.each n) x).run s).1 ((vae.encode scale y).run t).1 := by
  rw [(vae.each n).encode_any _ x s (vae.each n).cleared, vae.encode_any scale y t vae.cleared]
  exact (WanVAE.encode_inStep scale hvae h _ _ (vae.cleared_each j)).1

/-- **Decoding a batch.** -/
theorem WanVAE.decode_each (hvae : vae.Proper) (scale : Scale F z) (h : ClipOf j x y) (s : Caches (Batch n F)) (t : Caches F) :
    Agree (ClipOf j) (((vae.each n).decode (scale.each n) x).run s).1 ((vae.decode scale y).run t).1 := by
  rw [(vae.each n).decode_any _ x s (vae.each n).cleared, vae.decode_any scale y t vae.cleared]
  exact (WanVAE.decode_inStep scale hvae h _ _ (vae.cleared_each j)).1

end Calls

/-! ## Lists of clips -/

/-- the number of frames of the clips of a batch -/
def frames {G : Type} (x : List (List G)) : ℕ := (x.headD []).length

/-- n + 1 clips of one shape, as a tensor -/
def toTensor (n : ℕ) (batch : List (List F)) : Except PyErr (List (Batch n F)) :=
  if batch.length = n + 1 ∧ (∀ clip ∈ batch, clip.length = frames batch) ∧
      ∀ clip ∈ batch, ∀ a ∈ clip, ∀ clip' ∈ batch, ∀ a' ∈ clip', dim a = dim a' then
    .ok ((List.range (frames batch)).map fun t j => (batch.getD j []).getD t (zeros ⟨0, 0, 0⟩))
  else .error ⟨.runtimeError, "stack expects each tensor to be equal size"⟩

omit [Feature F] in
/-- a list by its numbers -/
theorem range_getD (l : List F) (a : F) : ((List.range l.length).map fun k => l.getD k a) = l := by
  refine List.ext_getElem (by simp) ?_
  intro k h₁ h₂
  rw [List.getElem_map, List.getElem_range, List.getD_eq_getElem?_getD, List.getElem?_eq_getElem h₂]
  rfl

omit [Feature F] in
theorem getD_mem {l : List F} {a : F} {k : ℕ} (hk : k < l.length) : l.getD k a ∈ l := by
  rw [List.getD_eq_getElem?_getD, List.getElem?_eq_getElem hk]
  exact List.getElem_mem hk

omit [Feature F] in
theorem getD_map {G : Type} {f : G → List F} {l : List G} {k : ℕ} {a : G} (hk : k < l.length) :
    (l.map f).getD k [] = f (l.getD k a) := by
  simp [List.getD_eq_getElem?_getD, hk]

/-- the clips of a list are the clips of the tensor -/
theorem toTensor_ok {batch : List (List F)} {t : ℕ} {d : Dim} (hn : batch.length = n + 1)
    (hlen : ∀ clip ∈ batch, clip.length = t)
    (hdim : ∀ clip ∈ batch, ∀ a ∈ clip, dim a = d) :
    ∃ x, toTensor n batch = .ok x ∧ ∀ j : Fin (n + 1), ClipOf j x (batch.getD j []) := by
  have hmem : ∀ j : Fin (n + 1), batch.getD j [] ∈ batch := fun j => getD_mem (by rw [hn]; exact j.isLt)
  have hframes : frames batch = t := by
    obtain ⟨clip, rest, rfl⟩ := List.exists_cons_of_length_eq_add_one hn
    exact hlen clip List.mem_cons_self
  refine ⟨_, if_pos ⟨hn, fun clip hclip => by rw [hframes, hlen clip hclip],
    fun clip hclip a ha clip' hclip' a' ha' => by rw [hdim clip hclip a ha, hdim clip' hclip' a' ha']⟩, fun j => ⟨?_, d, ?_⟩⟩
  · rw [hframes, ← hlen _ (hmem j), List.map_map]
    exact range_getD (batch.getD j []) _
  · refine List.forall_mem_map.2 fun k hk i => hdim _ (hmem i) _ (getD_mem ?_)
    rw [hlen _ (hmem i), ← hframes]
    exact List.mem_range.1 hk

/-- the clips of a tensor, from those of a list -/
theorem clips_eq {outs : List (List F)} {out : List (Batch n F)} (hn : outs.length = n + 1)
    (hout : ∀ j : Fin (n + 1), ClipOf j out (outs.getD j [])) : clips out = outs := by
  rw [← range_getD outs [], hn, clips]
  refine List.map_congr_left ?_
  intro j hj
  have hmod : Fin.ofNat (n + 1) j = ⟨j, List.mem_range.1 hj⟩ := Fin.ext (Nat.mod_eq_of_lt (List.mem_range.1 hj))
  rw [hmod]
  exact (hout ⟨j, List.mem_range.1 hj⟩).clip

/-! ## Batches of any size -/

/-- the caches of one autoencoder, for the batch it was called on last -/
structure AnyCaches (F : Type) where
  size : ℕ
  caches : Caches (Batch size F)

/-- what a call on n + 1 clips finds; caches of a batch of another size are left out, as each call begins by clearing them -/
def AnyCaches.forSize (s : AnyCaches F) (n : ℕ) : Caches (Batch n F) :=
  if h : s.size = n then h ▸ s.caches else ⟨0, 0, [], 0, 0, []⟩

/-- a call on n + 1 clips -/
def AnyCaches.call {α : Type} (n : ℕ) (x : Py (Caches (Batch n F)) α) : Py (AnyCaches F) α := fun s =>
  ((x.run (s.forSize n)).1, ⟨n, (x.run (s.forSize n)).2⟩)

/-- what a call on a tensor gives, clip by clip -/
theorem AnyCaches.call_clips {m : Py (Caches (Batch n F)) (List (Batch n F))} {outs : List (List F)}
    (hn : outs.length = n + 1) (hm : ∀ (j : Fin (n + 1)) s, Agree (ClipOf j) (m.run s).1 (.ok (outs.getD j [])))
    (s : AnyCaches F) : ∃ s', (AnyCaches.call n m >>= fun out => pure (clips out)).run s = (.ok outs, s') := by
  have hzero := hm 0 (s.forSize n)
  obtain ⟨out, hout⟩ : ∃ out, (m.run (s.forSize n)).1 = .ok out := by
    generalize (m.run (s.forSize n)).1 = o at hzero
    cases hzero with
    | ok _ => exact ⟨_, rfl⟩
  have hclip : ∀ j : Fin (n + 1), ClipOf j out (outs.getD j []) := by
    intro j
    have hj := hm j (s.forSize n)
    rw [hout] at hj
    cases hj with
    | ok h => exact h
  have hcall : (AnyCaches.call n m).run s = (.ok out, ⟨n, (m.run (s.forSize n)).2⟩) := Prod.ext hout rfl
  refine ⟨⟨n, (m.run (s.forSize n)).2⟩, ?_⟩
  rw [Py.run_bind_ok hcall, Py.run_pure, clips_eq hn hclip]

section Lists

variable {z : ℕ}

/-- `self.vae.model.encode(batch, scale)` -/
def encodeBatch (vae : WanVAE F) (scale : Scale F z) (batch : List (List F)) : Py (AnyCaches F) (List (List F)) := do
  let n := batch.length - 1
  let x ← Py.ofExcept (toTensor n batch)
  let out ← AnyCaches.call n ((vae.each n).encode (scale.each n) x)
  pure (clips out)

/-- `self.vae.model.decode(batch, scale)` -/
def decodeBatch (vae : WanVAE F) (scale : Scale F z) (batch : List (List F)) : Py (AnyCaches F) (List (List F)) := do
  let n := batch.length - 1
  let x ← Py.ofExcept (toTensor n batch)
  let out ← AnyCaches.call n ((vae.each n).decode (scale.each n) x)
  pure (clips out)

variable {vae : WanVAE F} {scale : Scale F z} {batch : List (List F)} {r : List F → List F} {t : ℕ} {d : Dim}

/-- a call that does to each clip of a tensor what one on a single clip does to it -/
theorem AnyCaches.call_tensor {alone : List F → Py (Caches F) (List F)}
    {together : (n : ℕ) → List (Batch n F) → Py (Caches (Batch n F)) (List (Batch n F))}
    (hagree : ∀ (n : ℕ) (j : Fin (n + 1)) x y, ClipOf j x y → ∀ s t,
      Agree (ClipOf j) ((together n x).run s).1 ((alone y).run t).1)
    (hne : batch ≠ []) (hlen : ∀ clip ∈ batch, clip.length = t) (hdim : ∀ clip ∈ batch, ∀ a ∈ clip, dim a = d)
    (c : Caches F) (hr : ∀ clip ∈ batch, ((alone clip).run c).1 = .ok (r clip)) (s : AnyCaches F) :
    ∃ s', (Py.ofExcept (toTensor (batch.length - 1) batch) >>= fun x =>
      AnyCaches.call (batch.length - 1) (together (batch.length - 1) x) >>= fun out => pure (clips out)).run s =
        (.ok (batch.map r), s') := by
  have hn : batch.length = batch.length - 1 + 1 := (Nat.sub_add_cancel (List.length_pos_iff.2 hne)).symm
  obtain ⟨x, hx, hclip⟩ := toTensor_ok hn hlen hdim
  rw [hx, Py.run_bind_ofExcept]
  refine AnyCaches.call_clips ((List.length_map _).trans hn) (fun j s => ?_) s
  have hj : (j : ℕ) < batch.length := lt_of_lt_of_eq j.isLt hn.symm
  rw [getD_map hj, ← hr _ (getD_mem hj)]
  exact hagree _ j x _ (hclip j) s c

/-- clips of one shape, each of which is encoded alone, are encoded together -/
theorem encodeBatch_ok (hvae : vae.Proper) (hne : batch ≠ []) (hlen : ∀ clip ∈ batch, clip.length = t)
    (hdim : ∀ clip ∈ batch, ∀ a ∈ clip, dim a = d)
    (hr : ∀ clip ∈ batch, ∀ s, ((vae.encode scale clip).run s).1 = .ok (r clip)) (s : AnyCaches F) :
    ∃ s', (encodeBatch vae scale batch).run s = (.ok (batch.map r), s') :=
  AnyCaches.call_tensor (fun _ _ _ _ h => WanVAE.encode_each hvae scale h) hne hlen hdim vae.cleared
    (fun clip hclip => hr clip hclip _) s

theorem decodeBatch_ok (hvae : vae.Proper) (hne : batch ≠ []) (hlen : ∀ clip ∈ batch, clip.length = t)
    (hdim : ∀ clip ∈ batch, ∀ a ∈ clip, dim a = d)
    (hr : ∀ clip ∈ batch, ∀ s, ((vae.decode scale clip).run s).1 = .ok (r clip)) (s : AnyCaches F) :
    ∃ s', (decodeBatch vae scale batch).run s = (.ok (batch.map r), s') :=
  AnyCaches.call_tensor (fun _ _ _ _ h => WanVAE.decode_each hvae scale h) hne hlen hdim vae.cleared
    (fun clip hclip => hr clip hclip _) s

end Lists

end Viduce.Vae
