/-
How a clip is cut into chunks, and what `WanTransformer3DModel` makes of it. The tokens of a clip can be put into chunks in
many ways; which token stands where changes, and with most masks so does what a token may see.

- `call_same`: an attention whose masks look at places in the clip only gives the same for either way.
- `chunks_invisible`: with `full` and `slide_window_4x16x16`, so does the whole model.
-/
import Mathlib.Tactic
import Viduce.Models.Transformer

namespace Viduce.Transformer

variable {P V τ : Type} {s : PatchSize} {g g' : Grid}

/-! ## The same place -/

/-- a place of the clip in one way of cutting it, and in another -/
def Same (p : Place g) (p' : Place g') : Prop := p.position = p'.position

/-- clips of one size -/
def SameClip (g g' : Grid) : Prop := ∀ a, g.chunks a * g.tile a = g'.chunks a * g'.tile a

theorem SameClip.symm (h : SameClip g g') : SameClip g' g := fun a => (h a).symm

theorem SameClip.exists_same (h : SameClip g g') (p : Place g) : ∃ p' : Place g', Same p p' := by
  obtain ⟨p', hp'⟩ := position_fills.all p.position fun a => (p.position_lt a).trans_eq (h a)
  exact ⟨p', hp'.symm⟩

theorem position_inj {p q : Place g} (h : p.position = q.position) : p = q := by
  rw [← along_position_eq]
  exact fun a => congrFun h a

theorem SameClip.patched (h : SameClip g g') (hs : s.Divides g) (hs' : s.Divides g') :
    SameClip (g.patched s) (g'.patched s) := by
  have hdiv : ∀ {n k n' k' d : ℕ}, d ∣ k → d ∣ k' → n * k = n' * k' → n * (k / d) = n' * (k' / d) := by
    intro n k n' k' d hk hk' heq
    rw [← Nat.mul_div_assoc n hk, ← Nat.mul_div_assoc n' hk', heq]
  rintro (_ | _ | _)
  · exact hdiv hs.t hs'.t (h .t)
  · exact hdiv hs.h hs'.h (h .h)
  · exact hdiv hs.w hs'.w (h .w)

def PatchSize.along (s : PatchSize) : Axis → ℕ
  | .t => s.t
  | .h => s.h
  | .w => s.w

/-- where a pixel of a patch is in the clip -/
theorem pixel_position (hs : s.Divides g) (p : Place (g.patched s)) (t : Fin s.t) (h : Fin s.h) (w : Fin s.w) :
    (⟨p.nt, p.nh, p.nw, inPatch p.t t, inPatch p.h h, inPatch p.w w⟩ : Place g).position = fun a =>
      p.position a * s.along a + window t h w a := by
  have hmul : ∀ {n k d i j : ℕ}, d ∣ k → n * k + (i * d + j) = (n * (k / d) + i) * d + j := by
    intro n k d i j hd
    obtain ⟨k, rfl⟩ := hd
    rcases Nat.eq_zero_or_pos d with rfl | hpos
    · simp
    · rw [Nat.mul_div_cancel_left k hpos]
      ring
  ext a
  cases a
  · exact hmul hs.t
  · exact hmul hs.h
  · exact hmul hs.w

theorem Same.pixel (hs : s.Divides g) (hs' : s.Divides g') {p : Place (g.patched s)} {p' : Place (g'.patched s)} (h : Same p p')
    (t : Fin s.t) (r : Fin s.h) (w : Fin s.w) :
    Same (⟨p.nt, p.nh, p.nw, inPatch p.t t, inPatch p.h r, inPatch p.w w⟩ : Place g)
      (⟨p'.nt, p'.nh, p'.nw, inPatch p'.t t, inPatch p'.h r, inPatch p'.w w⟩ : Place g') := by
  rw [Same, pixel_position hs, pixel_position hs', h]

/-- the patch of a pixel, and where the pixel is in it -/
theorem patchOf_position (o : Place (g.unpatched s)) :
    (patchOf o).position = (fun a => o.position a / s.along a) ∧ (o.t.modNat : ℕ) = o.position .t % s.t ∧
      (o.h.modNat : ℕ) = o.position .h % s.h ∧ (o.w.modNat : ℕ) = o.position .w % s.w := by
  have hdiv : ∀ {n k d i : ℕ}, 0 < d → (n * (k * d) + i) / d = n * k + i / d := by
    intro n k d i hd
    rw [← Nat.mul_assoc, Nat.add_comm, Nat.add_mul_div_right _ _ hd, Nat.add_comm]
  have hmod : ∀ {n k d i : ℕ}, (n * (k * d) + i) % d = i % d := by
    intro n k d i
    rw [← Nat.mul_assoc, Nat.add_comm, Nat.add_mul_mod_self_right]
  refine ⟨?_, hmod.symm, hmod.symm, hmod.symm⟩
  ext a
  cases a
  · exact (hdiv s.t_pos).symm
  · exact (hdiv s.h_pos).symm
  · exact (hdiv s.w_pos).symm

/-! ## Attention -/

theorem nodup_finBlocks {α : Type} {n : ℕ} {f : Fin n → List α} (c : α → Fin n) (hf : ∀ i, (f i).Nodup)
    (hc : ∀ i, ∀ a ∈ f i, c a = i) : ((List.finRange n).flatMap f).Nodup := by
  refine List.nodup_flatMap.2 ⟨fun i _ => hf i, (List.nodup_finRange n).imp fun {i j} hij a hi hj => hij ?_⟩
  rw [← hc i a hi, hc j a hj]

theorem nodup_flattened (g : Grid) : (flattened g fun p => p).Nodup := by
  refine nodup_finBlocks Place.nt (fun nt => nodup_finBlocks Place.nh (fun nh => nodup_finBlocks Place.nw (fun nw =>
    nodup_finBlocks Place.t (fun t => nodup_finBlocks Place.h (fun h => ?_) ?_) ?_) ?_) ?_) ?_
  · exact (List.nodup_finRange g.W).map fun w w' heq => congrArg Place.w heq
  all_goals simp +contextual [List.mem_flatMap, List.mem_map, eq_comm]

/-- masks that admit the same places of the clip -/
def SameMask (g g' : Grid) (m m' : Option BlockMask) : Prop :=
  ∀ (q p : Place g) (q' p' : Place g'), Same q q' → Same p p' → (admits m q p ↔ admits m' q' p')

/-- what `flex_attention` gives does not depend on the order of the keys -/
def Attention.Unordered (attn : Attention V) : Prop := ∀ q kv kv', kv.Perm kv' → attn.flex q kv = attn.flex q kv'

/-- **Attention.** The tokens it may see are the same, in another order. -/
theorem call_same (hclip : SameClip g g') {attn : Attention V} (hattn : attn.Unordered) {rotary : Option (Place g → V → V)}
    {rotary' : Option (Place g' → V → V)} (hrotary : ∀ p p' v, Same p p' → turned rotary p v = turned rotary' p' v)
    {m m' : Option BlockMask} (hm : SameMask g g' m m') {x : Place g → V} {x' : Place g' → V}
    (hx : ∀ p p', Same p p' → x p = x' p') {q : Place g} {q' : Place g'} (hq : Same q q') :
    attn.call rotary m x q = attn.call rotary' m' x' q' := by
  set kv : Place g → V × V := fun p => (turned rotary p (attn.toK (x p)), attn.toV (x p)) with hkv
  set kv' : Place g' → V × V := fun p => (turned rotary' p (attn.toK (x' p)), attn.toV (x' p)) with hkv'
  have hsame : ∀ p p', Same p p' → kv p = kv' p' := fun p p' h => by
    simp only [hkv, hkv', hx p p' h, hrotary p p' _ h]
  -- with their places, the keys are the same ones
  have hperm : ((seen m q).map fun p => (p.position, kv p)).Perm ((seen m' q').map fun p => (p.position, kv' p)) := by
    have hnodup : ((seen m q).map fun p => (p.position, kv p)).Nodup :=
      ((nodup_flattened g).filter _).map fun p p' heq => position_inj (Prod.mk.inj heq).1
    have hnodup' : ((seen m' q').map fun p => (p.position, kv' p)).Nodup :=
      ((nodup_flattened g').filter _).map fun p p' heq => position_inj (Prod.mk.inj heq).1
    rw [List.perm_ext_iff_of_nodup hnodup hnodup']
    intro e
    constructor
    · intro he
      obtain ⟨p, hp, rfl⟩ := List.mem_map.1 he
      obtain ⟨p', hp'⟩ := hclip.exists_same p
      refine List.mem_map.2 ⟨p', mem_seen.2 ((hm q p q' p' hq hp').1 (mem_seen.1 hp)), ?_⟩
      rw [hsame p p' hp', hp']
    · intro he
      obtain ⟨p', hp', rfl⟩ := List.mem_map.1 he
      obtain ⟨p, hp⟩ := hclip.symm.exists_same p'
      refine List.mem_map.2 ⟨p, mem_seen.2 ((hm q p q' p' hq hp.symm).2 (mem_seen.1 hp')), ?_⟩
      rw [hsame p p' hp.symm, hp]
  have hkeys := hperm.map Prod.snd
  rw [List.map_map, List.map_map] at hkeys
  rw [Attention.call, Attention.call, hx q q' hq, hrotary q q' _ hq]
  exact congrArg attn.toOut (hattn _ _ _ hkeys)

/-! ## Blocks -/

/-- the masks of a block, in both ways -/
inductive SameMasks (g g' : Grid) : Masks → Masks → Prop
  | one {m m' : Option BlockMask} (h : SameMask g g' m m') : SameMasks g g' (.one m) (.one m')
  | each {m₀ m₀' m₁ m₁' : Option BlockMask} (h₀ : SameMask g g' m₀ m₀') (h₁ : SameMask g g' m₁ m₁') :
    SameMasks g g' (.each m₀ m₁) (.each m₀' m₁')

/-- both attentions -/
structure WanTransformerBlock.Unordered (block : WanTransformerBlock V τ) : Prop where
  attn1 : block.attn1.Unordered
  attn2 : block.attn2.Unordered

theorem block_same (hclip : SameClip g g') {block : WanTransformerBlock V τ} (hblock : block.Unordered)
    {rotary : Place g → V → V} {rotary' : Place g' → V → V} (hrotary : ∀ p p', Same p p' → rotary p = rotary' p')
    {masks masks' : Masks} (hm : SameMasks g g' masks masks') {temb : Place g → τ} {temb' : Place g' → τ}
    (htemb : ∀ p p', Same p p' → temb p = temb' p') {x : Place g → V} {x' : Place g' → V}
    (hx : ∀ p p', Same p p' → x p = x' p') {p : Place g} {p' : Place g'} (hp : Same p p') :
    block.forward x temb rotary masks p = block.forward x' temb' rotary' masks' p' := by
  have hturned : ∀ (p : Place g) (p' : Place g') (v : V), Same p p' →
      turned (some rotary) p v = turned (some rotary') p' v := fun p p' v h => congrFun (hrotary p p' h) v
  have hplain : ∀ (p : Place g) (p' : Place g') (v : V), Same p p' → turned none p v = turned none p' v := fun _ _ _ _ => rfl
  have hfirst : ∀ {m m' : Option BlockMask}, SameMask g g' m m' → ∀ q q', Same q q' →
      block.attn1.call (some rotary) m (fun p => block.norm1 (temb p) (x p)) q =
        block.attn1.call (some rotary') m' (fun p => block.norm1 (temb' p) (x' p)) q' := by
    intro m m' hm q q' hq
    exact call_same hclip hblock.attn1 hturned hm
      (fun p p' h => by rw [htemb p p' h, hx p p' h]) hq
  have hboth : ∀ {m₀ m₀' m₁ m₁' : Option BlockMask}, SameMask g g' m₀ m₀' → SameMask g g' m₁ m₁' →
      block.forward x temb rotary (.each m₀ m₁) p = block.forward x' temb' rotary' (.each m₀' m₁') p' := by
    intro m₀ m₀' m₁ m₁' h₀ h₁
    have hsecond := call_same hclip hblock.attn2 hplain h₁
      (x := fun p => block.norm2 (block.gate (temb p) (x p)
        (block.attn1.call (some rotary) m₀ (fun p => block.norm1 (temb p) (x p)) p)))
      (fun q q' hq => by rw [htemb q q' hq, hx q q' hq, hfirst h₀ q q' hq]) hp
    simp only [WanTransformerBlock.forward, hsecond, htemb p p' hp, hx p p' hp, hfirst h₀ p p' hp]
  cases hm with
  | one h => exact hboth h h
  | each h₀ h₁ => exact hboth h₀ h₁

theorem runBlocks_same (hclip : SameClip g g') (model : WanTransformer3DModel s P V τ)
    (hflex : ∀ block ∈ model.blocks, block.Unordered) {masks masks' : List Masks}
    (hm : List.Forall₂ (SameMasks g g') masks masks') {temb : Place g → τ} {temb' : Place g' → τ}
    (htemb : ∀ p p', Same p p' → temb p = temb' p') {x : Place g → V} {x' : Place g' → V}
    (hx : ∀ p p', Same p p' → x p = x' p') {p : Place g} {p' : Place g'} (hp : Same p p') :
    model.runBlocks temb masks x p = model.runBlocks temb' masks' x' p' := by
  have hrotary : ∀ (p : Place g) (p' : Place g'), Same p p' → model.rotaryEmb p = model.rotaryEmb p' := by
    intro p p' h
    rw [WanTransformer3DModel.rotaryEmb, WanTransformer3DModel.rotaryEmb, h]
  unfold WanTransformer3DModel.runBlocks
  generalize model.blocks = blocks at hflex
  induction hm generalizing blocks x x' with
  | nil =>
    rw [List.zip_nil_right]
    exact hx p p' hp
  | cons hmask _ ih =>
    cases blocks with
    | nil => exact hx p p' hp
    | cons block blocks =>
      rw [List.zip_cons_cons, List.zip_cons_cons, List.foldl_cons, List.foldl_cons]
      exact ih (fun q q' hq => block_same hclip (hflex block List.mem_cons_self) hrotary hmask htemb hx hq) blocks
        fun b hb => hflex b (List.mem_cons_of_mem block hb)

/-! ## The model -/

/-- types whose masks look at places of the clip only -/
def AttentionType.PlacesOnly (type : AttentionType) : Prop := type = full ∨ type = slideWindow4x16x16

theorem masks_same {type : AttentionType} (htype : type.PlacesOnly) (n : ℕ) {masks masks' : List Masks}
    (h : prepareAttentionMask n type g = .ok masks) (h' : prepareAttentionMask n type g' = .ok masks') :
    List.Forall₂ (SameMasks g g') masks masks' := by
  have hreplicate : ∀ {m m' : Masks}, SameMasks g g' m m' →
      List.Forall₂ (SameMasks g g') (List.replicate n m) (List.replicate n m') := by
    intro m m' hm
    clear h h'
    induction n with
    | zero => exact .nil
    | succ n ih => exact .cons hm ih
  rcases htype with rfl | rfl
  · obtain rfl := Except.ok.inj h
    obtain rfl := Except.ok.inj h'
    exact hreplicate (.one fun _ _ _ _ _ _ => Iff.rfl)
  · obtain rfl := Except.ok.inj h
    obtain rfl := Except.ok.inj h'
    refine hreplicate (.one fun q p q' p' hq hp => ?_)
    rw [admits_slide positionIds_lists, admits_slide positionIds_lists]
    exact forall_congr' fun a => by rw [hq, hp]

/-- **Chunks.** With masks that look at places of the clip only, two ways to cut the clip and its timesteps into chunks give
the same clip. -/
theorem chunks_invisible (model : WanTransformer3DModel s P V τ) (htype : model.attentionType.PlacesOnly)
    (hflex : ∀ block ∈ model.blocks, block.Unordered) (takes : model.Takes g) (takes' : model.Takes g')
    (hclip : SameClip g g') {x : Place g → P} {x' : Place g' → P} (hx : ∀ p p', Same p p' → x p = x' p')
    {timestep : Fin g.nT → Fin g.nH → Fin g.nW → τ} {timestep' : Fin g'.nT → Fin g'.nH → Fin g'.nW → τ}
    (ht : ∀ (p : Place g) (p' : Place g'), Same p p' → timestep p.nt p.nh p.nw = timestep' p'.nt p'.nh p'.nw)
    {o : Place ((g.patched s).unpatched s)} {o' : Place ((g'.patched s).unpatched s)} (ho : Same o o') :
    ∃ y y', model.forward x timestep = .ok y ∧ model.forward x' timestep' = .ok y' ∧ y o = y' o' := by
  obtain ⟨masks, -, hmasks, hforward⟩ := takes.forward_ok (patchOf o)
  obtain ⟨masks', -, hmasks', hforward'⟩ := takes'.forward_ok (patchOf o')
  refine ⟨_, _, hforward x timestep, hforward' x' timestep', ?_⟩
  have hclip' := hclip.patched takes.patches takes'.patches
  obtain ⟨hplace, hot, hoh, how⟩ := patchOf_position o
  obtain ⟨hplace', hot', hoh', how'⟩ := patchOf_position o'
  have hpatch : Same (patchOf o) (patchOf o') := by rw [Same, hplace, hplace', ho]
  have htemb : ∀ (p : Place (g.patched s)) (p' : Place (g'.patched s)), Same p p' →
      timestep p.nt p.nh p.nw = timestep' p'.nt p'.nh p'.nw := by
    intro p p' h
    exact ht _ _ (h.pixel takes.patches takes'.patches ⟨0, s.t_pos⟩ ⟨0, s.h_pos⟩ ⟨0, s.w_pos⟩)
  have hembed : ∀ (p : Place (g.patched s)) (p' : Place (g'.patched s)), Same p p' →
      model.patchEmbedding (patch s x p) = model.patchEmbedding (patch s x' p') := by
    intro p p' h
    simp only [patch, fun t r w => hx _ _ (h.pixel takes.patches takes'.patches t r w)]
  have hrun := runBlocks_same hclip' model hflex (masks_same htype _ hmasks hmasks') htemb hembed hpatch
  have hmod : o.t.modNat = o'.t.modNat ∧ o.h.modNat = o'.h.modNat ∧ o.w.modNat = o'.w.modNat :=
    ⟨Fin.ext (by rw [hot, hot', ho]), Fin.ext (by rw [hoh, hoh', ho]), Fin.ext (by rw [how, how', ho])⟩
  have hchunk := htemb (patchOf o) (patchOf o') hpatch
  rw [hmod.1, hmod.2.1, hmod.2.2, hrun]
  exact congrFun (congrFun (congrFun (congrFun (congrArg model.projOut hchunk) _) _) _) _

/-- two chunks of a frame, and one chunk of two -/
theorem chunks_invisible_twoFrames :
    ∃ y y', (carry patch1x2x2 .full 1 2).forward (g := ⟨2, 1, 1, 1, 2, 2⟩) (fun p => decide (p.position .t = 0))
        (fun _ _ _ => ()) = .ok y ∧
      (carry patch1x2x2 .full 1 2).forward (g := ⟨1, 1, 1, 2, 2, 2⟩) (fun p => decide (p.position .t = 0))
        (fun _ _ _ => ()) = .ok y' ∧
      y ⟨⟨1, by decide⟩, ⟨0, by decide⟩, ⟨0, by decide⟩, ⟨0, by decide⟩, ⟨0, by decide⟩, ⟨0, by decide⟩⟩ =
        y' ⟨⟨0, by decide⟩, ⟨0, by decide⟩, ⟨0, by decide⟩, ⟨1, by decide⟩, ⟨0, by decide⟩, ⟨0, by decide⟩⟩ := by
  have hcarry : carryAttention.Unordered := fun _ _ _ h => h.any_eq
  refine chunks_invisible (carry patch1x2x2 .full 1 2) (Or.inl rfl) (fun block hblock => ?_)
    ⟨⟨by decide, by decide, by decide⟩, by decide, by decide, by decide, by decide⟩
    ⟨⟨by decide, by decide, by decide⟩, by decide, by decide, by decide, by decide⟩ ?_ (fun p p' h => by rw [h])
    (fun _ _ _ => rfl) ?_
  · obtain rfl := List.eq_of_mem_replicate hblock
    exact ⟨hcarry, hcarry⟩
  · rintro (_ | _ | _) <;> rfl
  · ext a
    cases a <;> rfl

end Viduce.Transformer
