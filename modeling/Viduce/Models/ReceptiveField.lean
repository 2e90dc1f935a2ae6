/-
How far the attentions of `WanTransformer3DModel` see, all blocks together, for each type of attention.

- `Reaches`: the table, in chunks or places of the clip.
- `reach_masks`: the masks of `prepare_attention_mask` reach that far and no further, and there is one for each block.
-/
import Mathlib.Tactic
import Viduce.Models.ShiftedWindows

namespace Viduce.Transformer

open Viduce.Influence

variable {g : Grid}

/-- **The table.** The tokens q that a token p depends on, in a model of so many blocks. -/
def AttentionType.Reaches (type : AttentionType) (blocks : ℕ) (p q : Place g) : Prop :=
  match type with
  | full => True
  | slideChunk => ∀ a, Near (if blocks < 3 then 0 else 3) (p.chunk a) (q.chunk a)
  | slideChunk6 => ∀ a, Near (if blocks < 6 then 0 else 6) (p.chunk a) (q.chunk a)
  | slideChunkAll => ∀ a, Near blocks (p.chunk a) (q.chunk a)
  | slideChunkHalfBlock => ∀ a, Near (2 * (blocks / 2)) (p.chunk a) (q.chunk a)
  | slideChunkAllBlock => ∀ a, Near (2 * blocks) (p.chunk a) (q.chunk a)
  | slideChunkAllBlock2x1x1 => ∀ a, Near (2 * blocks * window 2 1 1 a) (p.chunk a) (q.chunk a)
  | slideChunkAllBlock2x0x0 => ∀ a, Near (2 * blocks * window 2 0 0 a) (p.chunk a) (q.chunk a)
  | slideChunkBottleneck =>
    ∀ a, Near (2 * (blocks - blocks * 4 / 5) * window 2 8 8 a + 2 * (blocks * 4 / 5)) (p.chunk a) (q.chunk a)
  | swin => ∀ a, swinReaches (g.chunks a) (g.tile a) blocks (p.position a) (q.position a)
  | slideWindow4x16x16 => ∀ a, Near (2 * blocks * window 4 16 16 a) (p.position a) (q.position a)

/-- the fewest blocks of a model of that type -/
def AttentionType.least : AttentionType → ℕ
  | slideChunkHalfBlock => 2
  | _ => 1

/-- the masks of a model, one for each block, and what they reach -/
structure MasksReach (g : Grid) (blocks : ℕ) (masks : List Masks) (r : Place g → Place g → Prop) : Prop where
  length : masks.length = blocks
  self : ∀ m ∈ masks.flatMap Masks.attentions, ∀ p : Place g, admits m p p
  reach : reach ((masks.flatMap Masks.attentions).map (admits (g := g))) = r

theorem near_self (w x : ℕ) : Near w x x := by
  rw [Near, sub_self, abs_zero]
  exact Nat.cast_nonneg w

/-- masks that are boxes -/
theorem Boxes.masksReach {c : Place g → Axis → ℕ} {size : Axis → ℕ} (hc : Fills c size) {masks : List Masks}
    {ws : List (Axis → ℕ)} (h : Boxes c masks ws) {blocks : ℕ} (hlen : masks.length = blocks) (hpos : 0 < blocks) :
    MasksReach g blocks masks (Along c fun a => Near (ws.map (· a)).sum) where
  length := hlen
  self m hm p := by
    have hmem : admits (g := g) m ∈ ws.map fun w => Along c fun a => Near (w a) := by
      rw [← h]
      exact List.mem_map_of_mem hm
    obtain ⟨w, -, hw⟩ := List.mem_map.1 hmem
    rw [← hw]
    exact fun a => near_self _ _
  reach := by
    have hws : ws ≠ [] := by
      rw [← List.length_pos_iff, h.length]
      omega
    rw [h, reach_near hc hws]

/-- the tokens of a clip that has any take all chunks -/
theorem chunk_fills (p : Place g) : Fills (Place.chunk (g := g)) g.chunks where
  below q a := by
    cases a
    · exact q.nt.isLt
    · exact q.nh.isLt
    · exact q.nw.isLt
  all x hx := by
    refine ⟨⟨⟨_, hx .t⟩, ⟨_, hx .h⟩, ⟨_, hx .w⟩, p.t, p.h, p.w⟩, ?_⟩
    ext a
    cases a <;> rfl

/-- sliding chunks, with the attentions that slide counted -/
theorem slidingChunk_masksReach (p : Place g) {blocks : ℕ} (args : SlideArgs) (hpos : 0 < blocks)
    (hn : args.numSlideMask ≠ 0) {far : Axis → ℕ}
    (hfar : ∀ a, args.slides blocks * window args.windowT args.windowH args.windowW a = far a) :
    ∃ masks, slidingChunkAttentionMask blocks args g = .ok masks ∧
      MasksReach g blocks masks (Along Place.chunk fun a => Near (far a)) := by
  obtain ⟨masks, ws, hmasks, hlen, hboxes, hsum⟩ := slidingChunkAttentionMask_ok g blocks hn
  have hreach := hboxes.masksReach (chunk_fills p) hlen hpos
  simp only [hsum, hfar] at hreach
  exact ⟨masks, hmasks, hreach⟩

theorem admits_full (g : Grid) (blocks : ℕ) {m : Option BlockMask} (hm : m ∈ (fullAttentionMask blocks g).flatMap Masks.attentions) :
    m = none := by
  obtain ⟨masks, hmasks, hm⟩ := List.mem_flatMap.1 hm
  obtain rfl := List.eq_of_mem_replicate hmasks
  simpa [Masks.attentions] using hm

/-- masks that admit everything -/
theorem full_masksReach {blocks : ℕ} (hpos : 0 < blocks) :
    MasksReach g blocks (fullAttentionMask blocks g) fun _ _ => True where
  length := List.length_replicate
  self m hm p := by
    rw [admits_full g blocks hm]
    trivial
  reach := by
    obtain ⟨b, rfl⟩ : ∃ b, blocks = b + 1 := ⟨blocks - 1, by omega⟩
    ext p q
    refine iff_true_intro ⟨q, ⟨p, ?_, trivial⟩, trivial⟩
    refine reach_self (fun r hr i => ?_) p
    obtain ⟨m, hm, rfl⟩ := List.mem_map.1 hr
    rw [admits_full g b hm]
    trivial

theorem swin_masksReach (blocks : ℕ) : MasksReach g blocks (swinAttentionMask blocks g)
    (Along Place.position fun a => swinReaches (g.chunks a) (g.tile a) blocks) where
  length := by rw [swinAttentionMask, List.length_map, List.length_range]
  self m hm p := by
    obtain ⟨masks, hmasks, hm⟩ := List.mem_flatMap.1 hm
    obtain ⟨i, -, rfl⟩ := List.mem_map.1 hmasks
    have hself := admits_swin g i
    rcases List.mem_cons.1 hm with rfl | hm
    · rw [hself]
      exact fun _ => rfl
    · obtain rfl := List.mem_singleton.1 hm
      rw [hself]
      exact fun _ => rfl
  reach := reach_swin g blocks

/-- **Receptive field.** There is a mask for each block, each admits the token itself, and all of them together reach the
tokens of the table. -/
theorem reach_masks (p : Place g) (type : AttentionType) {blocks : ℕ} (h : type.least ≤ blocks) :
    ∃ masks, prepareAttentionMask blocks type g = .ok masks ∧ MasksReach g blocks masks (type.Reaches blocks) := by
  have hone : ∀ a, window 1 1 1 a = 1 := fun a => by cases a <;> rfl
  have hpos : 0 < blocks := by
    cases type <;> exact Nat.lt_of_lt_of_le (by decide) h
  have hall : ¬ blocks < blocks := lt_irrefl blocks
  cases type with
  | full => exact ⟨_, rfl, full_masksReach hpos⟩
  | slideChunk => exact slidingChunk_masksReach p {} hpos (by decide) fun a => by rw [hone, mul_one]; rfl
  | slideChunk6 => exact slidingChunk_masksReach p { numSlideMask := 6 } hpos (by decide) fun a => by rw [hone, mul_one]; rfl
  | slideChunkAll =>
    refine slidingChunk_masksReach p { numSlideMask := blocks } hpos hpos.ne' fun a => ?_
    rw [hone, SlideArgs.slides, if_neg hall, if_pos rfl, one_mul, mul_one]
  | slideChunkHalfBlock =>
    have hhalf : 0 < blocks / 2 := Nat.div_pos h two_pos
    refine slidingChunk_masksReach p { numSlideMask := blocks / 2, singleSlidePerBlock := false } hpos hhalf.ne' fun a => ?_
    rw [hone, mul_one, SlideArgs.slides, if_neg (not_lt.2 (Nat.div_le_self blocks 2))]
    rfl
  | slideChunkAllBlock =>
    refine slidingChunk_masksReach p { numSlideMask := blocks, singleSlidePerBlock := false } hpos hpos.ne' fun a => ?_
    rw [hone, mul_one, SlideArgs.slides, if_neg hall]
    rfl
  | slideChunkAllBlock2x1x1 =>
    refine slidingChunk_masksReach p { windowT := 2, numSlideMask := blocks, singleSlidePerBlock := false } hpos hpos.ne'
      fun a => ?_
    rw [SlideArgs.slides, if_neg hall]
    rfl
  | slideChunkAllBlock2x0x0 =>
    refine slidingChunk_masksReach p { windowT := 2, windowH := 0, windowW := 0, numSlideMask := blocks, singleSlidePerBlock := false }
      hpos hpos.ne' fun a => ?_
    rw [SlideArgs.slides, if_neg hall]
    rfl
  | slideChunkBottleneck =>
    obtain ⟨hlen, ws, hboxes, hsum⟩ := slideChunkBottlenect_ok g blocks
    have hreach := hboxes.masksReach (chunk_fills p) hlen hpos
    simp only [hsum] at hreach
    exact ⟨_, rfl, hreach⟩
  | swin => exact ⟨_, rfl, swin_masksReach blocks⟩
  | slideWindow4x16x16 =>
    obtain ⟨ws, hboxes, hsum⟩ := slidingWindow_ok g blocks
    have hreach := hboxes.masksReach position_fills List.length_replicate hpos
    simp only [hsum] at hreach
    exact ⟨_, rfl, hreach⟩

end Viduce.Transformer
