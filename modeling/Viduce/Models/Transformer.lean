/-
`WanTransformer3DModel.forward` (`models/transformer_wan.py`) on one clip, and `Precond.predict_v` (`models/precond.py`)
around it. The layers of torch and diffusers are parameters that act token by token; `flex_attention` is one that is given a
query and what the mask admits. Distributed inference (`use_sp`) always raises and is left out.

- `forward_ok`: with patches that divide the chunks, it gives a clip of the same size.
- `forward_reads`: what it gives for a pixel is settled by the patches in the table `Reaches` and their timesteps.
- `receptive_field`: and it depends on each of these patches.
- `predict_v_reads`: so a velocity is settled by the noise, the condition, the mask and the timesteps there.
-/
import Mathlib.Tactic
import Viduce.Models.ReceptiveField

namespace Viduce.Transformer

open Viduce.Influence

/-! ## Model -/

structure PatchSize where
  t : ℕ
  h : ℕ
  w : ℕ
  t_pos : 0 < t
  h_pos : 0 < h
  w_pos : 0 < w

variable {P V τ : Type} {s : PatchSize} {g : Grid}

/-- `Attention` with `WanAttnProcessor2_0`, by what it does to single tokens -/
structure Attention (V : Type) where
  /-- `to_q` and `norm_q` -/
  toQ : V → V
  /-- `to_k` and `norm_k` -/
  toK : V → V
  toV : V → V
  /-- `flex_attention` for one query, on the keys it may see and their values -/
  flex : V → List (V × V) → V
  toOut : V → V

/-- `apply_rotary_emb`, if there is a `rotary_emb` -/
def turned (rotary : Option (Place g → V → V)) (p : Place g) (v : V) : V :=
  match rotary with
  | some r => r p v
  | none => v

/-- the tokens that a query may see, in their order -/
def seen (m : Option BlockMask) (q : Place g) : List (Place g) :=
  (flattened g fun p => p).filter fun p =>
    match m with
    | some mask => mask q.index p.index
    | none => true

def Attention.call (attn : Attention V) (rotary : Option (Place g → V → V)) (m : Option BlockMask) (x : Place g → V) :
    Place g → V := fun q =>
  attn.toOut (attn.flex (turned rotary q (attn.toQ (x q)))
    ((seen m q).map fun p => (turned rotary p (attn.toK (x p)), attn.toV (x p))))

/-- what is done with `temb` is done by the timestep of the chunk -/
structure WanTransformerBlock (V τ : Type) where
  /-- `norm1`, scaled and shifted -/
  norm1 : τ → V → V
  attn1 : Attention V
  /-- `hidden_states + attn_output * gate_msa` -/
  gate : τ → V → V → V
  norm2 : V → V
  attn2 : Attention V
  /-- `hidden_states + attn_output` -/
  add : V → V → V
  /-- `norm3`, `ffn` and what is added of it -/
  ffn : τ → V → V

def WanTransformerBlock.forward (block : WanTransformerBlock V τ) (hidden : Place g → V) (temb : Place g → τ)
    (rotary : Place g → V → V) (masks : Masks) : Place g → V :=
  let (m₀, m₁) : Option BlockMask × Option BlockMask := match masks with
    | .one m => (m, m)
    | .each m₀ m₁ => (m₀, m₁)
  let attnOutput := block.attn1.call (some rotary) m₀ fun p => block.norm1 (temb p) (hidden p)
  let hidden := fun p => block.gate (temb p) (hidden p) (attnOutput p)
  let attnOutput := block.attn2.call none m₁ fun p => block.norm2 (hidden p)
  let hidden := fun p => block.add (hidden p) (attnOutput p)
  fun p => block.ffn (temb p) (hidden p)

structure WanTransformer3DModel (patchSize : PatchSize) (P V τ : Type) where
  ropeMaxSeqLen : ℕ
  /-- `apply_rotary_emb` with the frequencies of a place in the clip -/
  rope : (t h w : ℕ) → V → V
  /-- `patch_embedding`, from the pixels of a patch -/
  patchEmbedding : List P → V
  blocks : List (WanTransformerBlock V τ)
  attentionType : AttentionType
  /-- `norm_out`, scaled and shifted, and `proj_out`: the pixels of the patch -/
  projOut : τ → V → Fin patchSize.t → Fin patchSize.h → Fin patchSize.w → P

/-- chunks of patches -/
def Grid.patched (g : Grid) (s : PatchSize) : Grid := ⟨g.nT, g.nH, g.nW, g.T / s.t, g.H / s.h, g.W / s.w⟩

/-- and of pixels again -/
def Grid.unpatched (g : Grid) (s : PatchSize) : Grid := ⟨g.nT, g.nH, g.nW, g.T * s.t, g.H * s.h, g.W * s.w⟩

/-- pixel j of patch i -/
def inPatch {n k : ℕ} (i : Fin (n / k)) (j : Fin k) : Fin n :=
  ⟨i * k + j, (block_lt i.isLt j.isLt).trans_le (Nat.div_mul_le_self n k)⟩

/-- the pixels of a patch -/
def patch (s : PatchSize) (x : Place g → P) (p : Place (g.patched s)) : List P :=
  (List.finRange s.t).flatMap fun t => (List.finRange s.h).flatMap fun h => (List.finRange s.w).map fun w =>
    x ⟨p.nt, p.nh, p.nw, inPatch p.t t, inPatch p.h h, inPatch p.w w⟩

/-- the patch of a pixel -/
def patchOf (o : Place (g.unpatched s)) : Place g := ⟨o.nt, o.nh, o.nw, o.t.divNat, o.h.divNat, o.w.divNat⟩

namespace WanTransformer3DModel

/-- `self.rope`, and the shapes that the tokens have to fit into -/
def checkShapes (model : WanTransformer3DModel s P V τ) (g : Grid) : Except PyErr Unit :=
  let ppf := g.nT * g.T / s.t
  let pph := g.nH * g.H / s.h
  let ppw := g.nW * g.W / s.w
  if model.ropeMaxSeqLen < ppf ∨ model.ropeMaxSeqLen < pph ∨ model.ropeMaxSeqLen < ppw then
    .error ⟨.runtimeError, s!"shape '[{ppf}, {pph}, {ppw}, -1]' is invalid"⟩
  else if g.T < s.t ∨ g.H < s.h ∨ g.W < s.w then
    .error ⟨.runtimeError, "Kernel size can't be greater than actual input size"⟩
  else if ppf * pph * ppw ≠ (g.patched s).tokens then .error ⟨.other, "Shape mismatch"⟩
  else .ok ()

/-- the frequencies of a token -/
def rotaryEmb (model : WanTransformer3DModel s P V τ) (p : Place g) : V → V :=
  model.rope (p.position .t) (p.position .h) (p.position .w)

/-- the blocks, each with its masks: `zip(self.blocks, attention_masks)` -/
def runBlocks (model : WanTransformer3DModel s P V τ) (temb : Place g → τ) (masks : List Masks) (hidden : Place g → V) :
    Place g → V :=
  (model.blocks.zip masks).foldl (fun hidden r => r.1.forward hidden temb model.rotaryEmb r.2) hidden

def forward (model : WanTransformer3DModel s P V τ) (x : Place g → P) (timestep : Fin g.nT → Fin g.nH → Fin g.nW → τ) :
    Except PyErr (Place ((g.patched s).unpatched s) → P) := do
  model.checkShapes g
  let masks ← prepareAttentionMask model.blocks.length model.attentionType (g.patched s)
  let temb := fun p : Place (g.patched s) => timestep p.nt p.nh p.nw
  let hidden := model.runBlocks temb masks fun p => model.patchEmbedding (patch s x p)
  pure fun o => model.projOut (temb (patchOf o)) (hidden (patchOf o)) o.t.modNat o.h.modNat o.w.modNat

end WanTransformer3DModel

/-- `t.mul(1000).to(dtype=torch.long)` -/
def thousandths (t : ℚ) : ℤ := Int.tdiv (t * 1000).num (t * 1000).den

/-- `Precond.predict_v`: the channels on top of each other -/
def predictV {C : Type} (model : WanTransformer3DModel s (List C) V ℤ) (xt y msk : Place g → List C)
    (t : Fin g.nT → Fin g.nH → Fin g.nW → ℚ) : Except PyErr (Place ((g.patched s).unpatched s) → List C) :=
  let t := fun nt nh nw => thousandths (t nt nh nw)
  let modelInput := fun p => xt p ++ y p ++ msk p
  model.forward modelInput t

/-! ## Shapes -/

/-- patches divide chunks -/
structure PatchSize.Divides (s : PatchSize) (g : Grid) : Prop where
  t : s.t ∣ g.T
  h : s.h ∣ g.H
  w : s.w ∣ g.W

/-- a model that takes a clip of such chunks -/
structure WanTransformer3DModel.Takes (model : WanTransformer3DModel s P V τ) (g : Grid) : Prop where
  patches : s.Divides g
  t : g.nT * g.T / s.t ≤ model.ropeMaxSeqLen
  h : g.nH * g.H / s.h ≤ model.ropeMaxSeqLen
  w : g.nW * g.W / s.w ≤ model.ropeMaxSeqLen
  blocks : model.attentionType.least ≤ model.blocks.length

/-- with chunks of tokens, it gives what it makes of the blocks -/
theorem WanTransformer3DModel.Takes.forward_ok {model : WanTransformer3DModel s P V τ} (takes : model.Takes g)
    (p : Place (g.patched s)) :
    ∃ masks, MasksReach (g.patched s) model.blocks.length masks (model.attentionType.Reaches model.blocks.length) ∧
      prepareAttentionMask model.blocks.length model.attentionType (g.patched s) = .ok masks ∧
      ∀ (x : Place g → P) (timestep : Fin g.nT → Fin g.nH → Fin g.nW → τ), model.forward x timestep =
        .ok fun o => model.projOut (timestep o.nt o.nh o.nw)
          (model.runBlocks (fun p : Place (g.patched s) => timestep p.nt p.nh p.nw) masks
            (fun p => model.patchEmbedding (patch s x p)) (patchOf o)) o.t.modNat o.h.modNat o.w.modNat := by
  obtain ⟨masks, hmasks, hreach⟩ := reach_masks p model.attentionType takes.blocks
  refine ⟨masks, hreach, hmasks, fun x timestep => ?_⟩
  have hle : ∀ {n k : ℕ}, Fin (n / k) → k ∣ n → k ≤ n := by
    intro n k i hdvd
    refine Nat.le_of_dvd (Nat.pos_of_ne_zero fun h0 => ?_) hdvd
    have hi := i.isLt
    simp [h0] at hi
  have hcheck : model.checkShapes g = .ok () := by
    have hfar := takes.t
    have hfar' := takes.h
    have hfar'' := takes.w
    have ht := hle p.t takes.patches.t
    have hh := hle p.h takes.patches.h
    have hw := hle p.w takes.patches.w
    rw [checkShapes, if_neg (by omega), if_neg (by omega), if_neg]
    rw [not_not, Nat.mul_div_assoc _ takes.patches.t, Nat.mul_div_assoc _ takes.patches.h, Nat.mul_div_assoc _ takes.patches.w,
      Grid.tokens, Grid.patched]
    ring
  rw [forward, hcheck, hmasks]
  rfl

/-! ## What the tokens see -/

section Tokens

variable {m : Option BlockMask} {masks : List Masks}

theorem mem_flattened (p : Place g) : p ∈ flattened g fun p => p :=
  List.mem_of_getElem? (getElem?_flattened (fun p => p) p)

theorem mem_seen {p q : Place g} : p ∈ seen m q ↔ admits m q p := by
  rw [seen, List.mem_filter, and_iff_right (mem_flattened p)]
  cases m <;> simp [admits]

theorem Attention.call_reads (attn : Attention V) (rotary : Option (Place g → V → V)) (hself : ∀ p : Place g, admits m p p) :
    Reads (admits m) (attn.call rotary m) := by
  intro x y q hxy
  have hkeys : (seen m q).map (fun p => (turned rotary p (attn.toK (x p)), attn.toV (x p))) =
      (seen m q).map fun p => (turned rotary p (attn.toK (y p)), attn.toV (y p)) :=
    List.map_congr_left fun p hp => by rw [hxy p (mem_seen.1 hp)]
  rw [Attention.call, Attention.call, hkeys, hxy q (hself q)]

/-- a block up to its first attention, on tokens with their timesteps -/
def WanTransformerBlock.first (block : WanTransformerBlock V τ) (rotary : Place g → V → V) (m : Option BlockMask)
    (x : Place g → V × τ) (p : Place g) : V × τ :=
  (block.gate (x p).2 (x p).1 (block.attn1.call (some rotary) m (fun p => block.norm1 (x p).2 (x p).1) p), (x p).2)

/-- and from there on -/
def WanTransformerBlock.second (block : WanTransformerBlock V τ) (m : Option BlockMask) (x : Place g → V × τ) (p : Place g) :
    V × τ :=
  (block.ffn (x p).2 (block.add (x p).1 (block.attn2.call none m (fun p => block.norm2 (x p).1) p)), (x p).2)

/-- both parts of each block, one after the other -/
def parts (rotary : Place g → V → V) : List (WanTransformerBlock V τ) → List Masks →
    List ((Place g → V × τ) → Place g → V × τ)
  | block :: blocks, .one m :: masks => block.first rotary m :: block.second m :: parts rotary blocks masks
  | block :: blocks, .each m₀ m₁ :: masks => block.first rotary m₀ :: block.second m₁ :: parts rotary blocks masks
  | _, _ => []

theorem WanTransformerBlock.first_reads (block : WanTransformerBlock V τ) (rotary : Place g → V → V)
    (hself : ∀ p : Place g, admits m p p) : Reads (admits m) (block.first rotary m) := by
  intro x y p hxy
  have hcall := block.attn1.call_reads (some rotary) hself (fun p => block.norm1 (x p).2 (x p).1)
    (fun p => block.norm1 (y p).2 (y p).1) p fun q hq => by rw [hxy q hq]
  rw [first, first, hcall, hxy p (hself p)]

theorem WanTransformerBlock.second_reads (block : WanTransformerBlock V τ) (hself : ∀ p : Place g, admits m p p) :
    Reads (admits m) (block.second (g := g) m) := by
  intro x y p hxy
  have hcall := block.attn2.call_reads none hself (fun p => block.norm2 (x p).1) (fun p => block.norm2 (y p).1) p
    fun q hq => by rw [hxy q hq]
  rw [second, second, hcall, hxy p (hself p)]

/-- by the blocks: each part reads along its mask -/
theorem parts_reads (rotary : Place g → V → V) {blocks : List (WanTransformerBlock V τ)} (hlen : masks.length = blocks.length)
    (hself : ∀ m ∈ masks.flatMap Masks.attentions, ∀ p : Place g, admits m p p) :
    List.Forall₂ Reads ((masks.flatMap Masks.attentions).map (admits (g := g))) (parts rotary blocks masks) := by
  induction blocks generalizing masks with
  | nil =>
    obtain rfl := List.length_eq_zero_iff.1 hlen
    exact .nil
  | cons block blocks ih =>
    obtain ⟨m, masks, rfl⟩ := List.exists_cons_of_length_eq_add_one hlen
    have hrest := ih (by simpa using hlen) fun m' hm' => hself m' (List.mem_append_right _ hm')
    cases m with
    | one m =>
      have hm : ∀ p : Place g, admits m p p := hself m List.mem_cons_self
      exact .cons (block.first_reads rotary hm) (.cons (block.second_reads hm) hrest)
    | each m₀ m₁ =>
      exact .cons (block.first_reads rotary (hself m₀ List.mem_cons_self))
        (.cons (block.second_reads (hself m₁ (List.mem_cons_of_mem m₀ List.mem_cons_self))) hrest)

/-- the blocks are their parts -/
theorem runBlocks_parts (model : WanTransformer3DModel s P V τ) (temb : Place g → τ) (masks : List Masks)
    (hidden : Place g → V) :
    (fun p => (model.runBlocks temb masks hidden p, temb p)) =
      layers (parts model.rotaryEmb model.blocks masks) fun p => (hidden p, temb p) := by
  unfold WanTransformer3DModel.runBlocks
  generalize model.blocks = blocks
  induction blocks generalizing masks hidden with
  | nil => rfl
  | cons block blocks ih =>
    cases masks with
    | nil => rfl
    | cons m masks =>
      rw [List.zip_cons_cons, List.foldl_cons, ih]
      cases m <;> rfl

end Tokens

/-- pixel i belongs to the patch p -/
structure Covers (p : Place (g.patched s)) (i : Place g) : Prop where
  nt : i.nt = p.nt
  nh : i.nh = p.nh
  nw : i.nw = p.nw
  t : (i.t : ℕ) / s.t = p.t
  h : (i.h : ℕ) / s.h = p.h
  w : (i.w : ℕ) / s.w = p.w

theorem covers_inPatch (p : Place (g.patched s)) (t : Fin s.t) (h : Fin s.h) (w : Fin s.w) :
    Covers p ⟨p.nt, p.nh, p.nw, inPatch p.t t, inPatch p.h h, inPatch p.w w⟩ :=
  ⟨rfl, rfl, rfl, block_div t.isLt, block_div h.isLt, block_div w.isLt⟩

theorem patch_congr {x y : Place g → P} {p : Place (g.patched s)} (h : ∀ i, Covers p i → x i = y i) :
    patch s x p = patch s y p := by
  unfold patch
  simp only [fun t k w => h _ (covers_inPatch p t k w)]

theorem mem_patch {x : Place g → P} {p : Place (g.patched s)} {a : P} : a ∈ patch s x p ↔ ∃ i, Covers p i ∧ x i = a := by
  constructor
  · intro ha
    obtain ⟨t, -, ha⟩ := List.mem_flatMap.1 ha
    obtain ⟨h, -, ha⟩ := List.mem_flatMap.1 ha
    obtain ⟨w, -, rfl⟩ := List.mem_map.1 ha
    exact ⟨_, covers_inPatch p t h w, rfl⟩
  · rintro ⟨i, hi, rfl⟩
    have hin : ∀ {n k : ℕ} (j : Fin n) (l : Fin (n / k)) (hk : 0 < k), (j : ℕ) / k = l →
        j = inPatch l ⟨j % k, Nat.mod_lt _ hk⟩ := by
      intro n k j l hk hjl
      refine Fin.ext ?_
      change (j : ℕ) = l * k + j % k
      rw [← hjl, Nat.div_add_mod']
    have heq : i = ⟨p.nt, p.nh, p.nw, inPatch p.t ⟨i.t % s.t, Nat.mod_lt _ s.t_pos⟩,
        inPatch p.h ⟨i.h % s.h, Nat.mod_lt _ s.h_pos⟩, inPatch p.w ⟨i.w % s.w, Nat.mod_lt _ s.w_pos⟩⟩ :=
      Place.ext hi.nt hi.nh hi.nw (hin i.t p.t s.t_pos hi.t) (hin i.h p.h s.h_pos hi.h) (hin i.w p.w s.w_pos hi.w)
    rw [heq]
    exact List.mem_flatMap.2 ⟨_, List.mem_finRange _, List.mem_flatMap.2 ⟨_, List.mem_finRange _,
      List.mem_map.2 ⟨_, List.mem_finRange _, rfl⟩⟩⟩

/-- **What a pixel is settled by.** Two clips that agree on the patches in the table, timesteps included, give the same pixel. -/
theorem forward_reads (model : WanTransformer3DModel s P V τ) (takes : model.Takes g) (o : Place ((g.patched s).unpatched s))
    {x x' : Place g → P} {timestep timestep' : Fin g.nT → Fin g.nH → Fin g.nW → τ}
    (hsame : ∀ p : Place (g.patched s), model.attentionType.Reaches model.blocks.length (patchOf o) p →
      timestep p.nt p.nh p.nw = timestep' p.nt p.nh p.nw ∧ ∀ i, Covers p i → x i = x' i) :
    ∃ y y', model.forward x timestep = .ok y ∧ model.forward x' timestep' = .ok y' ∧ y o = y' o := by
  obtain ⟨masks, hreach, -, hforward⟩ := takes.forward_ok (patchOf o)
  refine ⟨_, _, hforward x timestep, hforward x' timestep', ?_⟩
  have hreads := Reads.layers (parts_reads model.rotaryEmb hreach.length hreach.self)
  rw [hreach.reach] at hreads
  have hsees := hreads (fun p : Place (g.patched s) => (model.patchEmbedding (patch s x p), timestep p.nt p.nh p.nw))
    (fun p => (model.patchEmbedding (patch s x' p), timestep' p.nt p.nh p.nw)) (patchOf o) fun p hp => by
      rw [(hsame p hp).1, patch_congr (hsame p hp).2]
  rw [← runBlocks_parts, ← runBlocks_parts] at hsees
  obtain ⟨hhidden, htemb⟩ := Prod.mk.inj hsees
  exact congrArg₂ (fun t v => model.projOut t v o.t.modNat o.h.modNat o.w.modNat) htemb hhidden

/-! ## A model that carries what it sees -/

def carryAttention : Attention Bool := ⟨id, id, id, fun _ kv => kv.any Prod.snd, id⟩

def carryBlock (τ : Type) : WanTransformerBlock Bool τ where
  norm1 _ v := v
  attn1 := carryAttention
  gate _ _ a := a
  norm2 v := v
  attn2 := carryAttention
  add _ a := a
  ffn _ v := v

/-- a pixel is set if any pixel of a token that its own one reaches is -/
def carry (s : PatchSize) (type : AttentionType) (blocks ropeMaxSeqLen : ℕ) : WanTransformer3DModel s Bool Bool Unit where
  ropeMaxSeqLen := ropeMaxSeqLen
  rope _ _ _ v := v
  patchEmbedding pixels := pixels.any id
  blocks := List.replicate blocks (carryBlock Unit)
  attentionType := type
  projOut _ v _ _ _ := v

theorem carry_spreads (m : Option BlockMask) (rotary : Option (Place g → Bool → Bool)) :
    Spreads (admits (g := g) m) (carryAttention.call rotary m) := by
  intro x q
  simp [Attention.call, carryAttention, mem_seen]

/-- by the blocks: what is set spreads along both masks of each -/
theorem carry_blocks (rotary : Place g → Bool → Bool) (temb : Place g → Unit) {n : ℕ} {masks : List Masks}
    (hlen : masks.length = n) :
    ∃ fs, List.Forall₂ Spreads ((masks.flatMap Masks.attentions).map (admits (g := g))) fs ∧
      ∀ hidden, ((List.replicate n (carryBlock Unit)).zip masks).foldl (fun hidden r => r.1.forward hidden temb rotary r.2)
        hidden =
        layers fs hidden := by
  induction n generalizing masks with
  | zero =>
    obtain rfl := List.length_eq_zero_iff.1 hlen
    exact ⟨[], .nil, fun _ => rfl⟩
  | succ n ih =>
    obtain ⟨m, masks, rfl⟩ := List.exists_cons_of_length_eq_add_one hlen
    obtain ⟨fs, hfs, hrun⟩ := ih (by simpa using hlen)
    cases m with
    | one m =>
      refine ⟨carryAttention.call (some rotary) m :: carryAttention.call none m :: fs,
        .cons (carry_spreads m _) (.cons (carry_spreads m _) hfs), fun hidden => ?_⟩
      rw [List.replicate_succ, List.zip_cons_cons, List.foldl_cons, hrun]
      rfl
    | each m₀ m₁ =>
      refine ⟨carryAttention.call (some rotary) m₀ :: carryAttention.call none m₁ :: fs,
        .cons (carry_spreads m₀ _) (.cons (carry_spreads m₁ _) hfs), fun hidden => ?_⟩
      rw [List.replicate_succ, List.zip_cons_cons, List.foldl_cons, hrun]
      rfl

/-- what that model gives -/
theorem carry_forward (type : AttentionType) {n : ℕ} (hn : type.least ≤ n) (hs : s.Divides g)
    (o : Place ((g.patched s).unpatched s)) :
    ∃ model : WanTransformer3DModel s Bool Bool Unit, model.attentionType = type ∧ model.blocks.length = n ∧ model.Takes g ∧
      ∀ x : Place g → Bool, ∃ y, model.forward x (fun _ _ _ => ()) = .ok y ∧
        (y o = true ↔ ∃ p : Place (g.patched s), type.Reaches n (patchOf o) p ∧ ∃ i, Covers p i ∧ x i = true) := by
  set model := carry s type n (max (g.nT * g.T / s.t) (max (g.nH * g.H / s.h) (g.nW * g.W / s.w))) with hmodel
  have hblocks : model.blocks.length = n := List.length_replicate
  have takes : model.Takes g := ⟨hs, le_max_left _ _, (le_max_left _ _).trans (le_max_right _ _),
    (le_max_right _ _).trans (le_max_right _ _), hblocks ▸ hn⟩
  obtain ⟨masks, hreach, -, hforward⟩ := takes.forward_ok (patchOf o)
  rw [hblocks] at hreach
  refine ⟨model, rfl, hblocks, takes, fun x => ⟨_, hforward x _, ?_⟩⟩
  obtain ⟨fs, hfs, hrun⟩ := carry_blocks model.rotaryEmb (fun _ : Place (g.patched s) => ()) hreach.length
  have hspreads := Spreads.layers hfs
  rw [hreach.reach] at hspreads
  have hset := hspreads (fun p => (patch s x p).any id) (patchOf o)
  rw [← hrun] at hset
  refine hset.trans (exists_congr fun p => and_congr_right fun _ => ?_)
  rw [List.any_eq_true]
  constructor
  · rintro ⟨a, ha, hset⟩
    obtain ⟨i, hi, rfl⟩ := mem_patch.1 ha
    exact ⟨i, hi, hset⟩
  · rintro ⟨i, hi, hxi⟩
    exact ⟨x i, mem_patch.2 ⟨i, hi, rfl⟩, hxi⟩

/-- some model of that type and size gives a different pixel o for clips that differ in pixel i only -/
def Influences (type : AttentionType) (n : ℕ) (o : Place ((g.patched s).unpatched s)) (i : Place g) : Prop :=
  ∃ (P V τ : Type) (model : WanTransformer3DModel s P V τ) (timestep : Fin g.nT → Fin g.nH → Fin g.nW → τ)
    (x x' : Place g → P) (y y' : Place ((g.patched s).unpatched s) → P),
    model.attentionType = type ∧ model.blocks.length = n ∧ model.Takes g ∧ (∀ j ≠ i, x j = x' j) ∧
      model.forward x timestep = .ok y ∧ model.forward x' timestep = .ok y' ∧ y o ≠ y' o

/-- **Receptive field.** A pixel depends on those of the patches that its own one reaches by the table, and on no other. -/
theorem receptive_field (type : AttentionType) {n : ℕ} (hn : type.least ≤ n) (hs : s.Divides g)
    (o : Place ((g.patched s).unpatched s)) (i : Place g) :
    Influences type n o i ↔ ∃ p : Place (g.patched s), type.Reaches n (patchOf o) p ∧ Covers p i := by
  constructor
  · rintro ⟨P, V, τ, model, timestep, x, x', y, y', rfl, rfl, takes, hsame, hy, hy', hne⟩
    by_contra hfar
    have hagree : ∀ p : Place (g.patched s), model.attentionType.Reaches model.blocks.length (patchOf o) p →
        timestep p.nt p.nh p.nw = timestep p.nt p.nh p.nw ∧ ∀ i, Covers p i → x i = x' i :=
      fun p hp => ⟨rfl, fun j hj => hsame j fun hji => hfar ⟨p, hp, hji ▸ hj⟩⟩
    obtain ⟨z, z', hz, hz', heq⟩ := forward_reads model takes o hagree
    obtain rfl := Except.ok.inj (hz.symm.trans hy)
    obtain rfl := Except.ok.inj (hz'.symm.trans hy')
    exact hne heq
  · rintro ⟨p, hp, hi⟩
    obtain ⟨model, htype, hblocks, takes, hgives⟩ := carry_forward type hn hs o
    obtain ⟨y, hy, hyo⟩ := hgives fun j => decide (j = i)
    obtain ⟨y', hy', hyo'⟩ := hgives fun _ => false
    refine ⟨Bool, Bool, Unit, model, _, _, _, y, y', htype, hblocks, takes, fun j hj => decide_eq_false hj, hy, hy', ?_⟩
    have hset := hyo.2 ⟨p, hp, i, hi, decide_eq_true rfl⟩
    intro heq
    obtain ⟨-, -, -, -, hfalse⟩ := hyo'.1 (heq ▸ hset)
    cases hfalse

/-- patches of 1 by 2 by 2, as configured -/
def patch1x2x2 : PatchSize := ⟨1, 2, 2, Nat.one_pos, Nat.two_pos, Nat.two_pos⟩

/-- with one block that slides twice, chunk 3 depends on chunk 1, not on chunk 0 -/
theorem receptive_field_oneBlock :
    Influences (s := patch1x2x2) (g := ⟨4, 1, 1, 1, 2, 2⟩) .slideChunkAllBlock 1
        ⟨⟨3, by decide⟩, ⟨0, by decide⟩, ⟨0, by decide⟩, ⟨0, by decide⟩, ⟨0, by decide⟩, ⟨0, by decide⟩⟩ ⟨1, 0, 0, 0, 0, 0⟩ ∧
      ¬ Influences (s := patch1x2x2) (g := ⟨4, 1, 1, 1, 2, 2⟩) .slideChunkAllBlock 1
        ⟨⟨3, by decide⟩, ⟨0, by decide⟩, ⟨0, by decide⟩, ⟨0, by decide⟩, ⟨0, by decide⟩, ⟨0, by decide⟩⟩ ⟨0, 0, 0, 0, 0, 0⟩ := by
  have hs : patch1x2x2.Divides ⟨4, 1, 1, 1, 2, 2⟩ := ⟨by decide, by decide, by decide⟩
  refine ⟨(receptive_field .slideChunkAllBlock le_rfl hs _ _).2
    ⟨⟨⟨1, by decide⟩, ⟨0, by decide⟩, ⟨0, by decide⟩, ⟨0, by decide⟩, ⟨0, by decide⟩, ⟨0, by decide⟩⟩, ?_, ?_⟩, fun h => ?_⟩
  · rintro (_ | _ | _) <;> decide
  · exact ⟨rfl, rfl, rfl, rfl, rfl, rfl⟩
  · obtain ⟨p, hp, hi⟩ := (receptive_field .slideChunkAllBlock le_rfl hs _ _).1 h
    have hframe := hp .t
    have hzero : p.chunk .t = 0 := congrArg Fin.val hi.nt.symm
    rw [hzero] at hframe
    exact absurd hframe (by decide)

end Viduce.Transformer
