/-
The masks of type `swin`: chunks in every other block, and in between chunks of the clip rolled by half a chunk. `torch.roll`
goes round the ends, so the reach of the masks does too.

- `meets_iff`: a rolled chunk has tokens of two chunks, neighbours on the circle.
- `reach_swin`: how far the masks of n blocks reach along each axis.
-/
import Mathlib.Tactic
import Viduce.Models.AttentionMasks

namespace Viduce.Transformer

open Viduce.Influence

/-! ## Chunks on a circle -/

/-- c is d chunks further than k on a circle of n, for some d between lo and hi -/
def Turn (n : ℕ) (lo hi : ℤ) (k c : ℕ) : Prop := ∃ d : ℤ, lo ≤ d ∧ d ≤ hi ∧ (c : ℤ) ≡ k + d [ZMOD n]

theorem turn_zero {n k c : ℕ} (hk : k < n) (hc : c < n) : Turn n 0 0 k c ↔ k = c := by
  constructor
  · rintro ⟨d, hlo, hhi, hmod⟩
    obtain rfl : d = 0 := le_antisymm hhi hlo
    rw [add_zero] at hmod
    have heq := Int.ModEq.eq hmod
    rw [Int.emod_eq_of_lt (by omega) (by omega), Int.emod_eq_of_lt (by omega) (by omega)] at heq
    omega
  · rintro rfl
    exact ⟨0, le_rfl, le_rfl, by rw [add_zero]⟩

/-- the next chunk on the circle -/
theorem next_modEq (n c : ℕ) : (((c + 1) % n : ℕ) : ℤ) ≡ c + 1 [ZMOD n] := by
  rw [Int.natCast_mod]
  push_cast
  exact Int.mod_modEq _ _

theorem exists_prev {n k : ℕ} (hk : k < n) : ∃ c < n, k = (c + 1) % n := by
  rcases k with _ | k
  · exact ⟨n - 1, by omega, by rw [Nat.sub_add_cancel hk, Nat.mod_self]⟩
  · exact ⟨k, by omega, (Nat.mod_eq_of_lt hk).symm⟩

section Axis

variable {n T : ℕ}

/-- half a chunk further -/
def roll (n T x : ℕ) : ℕ := (x + T / 2) % (n * T)

/-- where a token of chunk c is after rolling -/
theorem roll_div {c t : ℕ} (hc : c < n) (ht : t < T) :
    roll n T (c * T + t) / T = if t + T / 2 < T then c else (c + 1) % n := by
  have hle : (c + 1) * T ≤ n * T := Nat.mul_le_mul_right T hc
  rw [Nat.succ_mul] at hle
  unfold roll
  split_ifs with h
  · rw [Nat.mod_eq_of_lt (by omega), Nat.add_assoc, block_div h]
  · have hover : c * T + t + T / 2 = (c + 1) * T + (t + T / 2 - T) := by
      rw [Nat.succ_mul]
      omega
    have hrest : t + T / 2 - T < T := by omega
    rw [hover]
    rcases Nat.lt_or_ge (c + 1) n with hin | hend
    · have hle' : (c + 1 + 1) * T ≤ n * T := Nat.mul_le_mul_right T hin
      rw [Nat.succ_mul] at hle'
      rw [Nat.mod_eq_of_lt (by omega), block_div hrest, Nat.mod_eq_of_lt hin]
    · obtain rfl : n = c + 1 := by omega
      rw [Nat.add_mod_left, Nat.mod_eq_of_lt (by rw [Nat.succ_mul]; omega), Nat.div_eq_of_lt hrest, Nat.mod_self]

/-- **Rolled chunks.** The rolled chunk k has tokens of chunk c if and only if it is c or the next one. -/
theorem meets_iff (hT : 2 ≤ T) {c k : ℕ} (hc : c < n) :
    (∃ y < n * T, y / T = c ∧ roll n T y / T = k) ↔ k = c ∨ k = (c + 1) % n := by
  have hpos : 0 < T := by omega
  constructor
  · rintro ⟨y, -, rfl, rfl⟩
    have hdiv := roll_div (T := T) hc (Nat.mod_lt y hpos)
    rw [Nat.div_add_mod'] at hdiv
    rw [hdiv]
    split_ifs
    · exact Or.inl rfl
    · exact Or.inr rfl
  · rintro (rfl | rfl)
    · exact ⟨k * T + 0, block_lt hc hpos, block_div hpos, by rw [roll_div hc hpos, if_pos (by omega)]⟩
    · have hlast : T - 1 < T := by omega
      exact ⟨c * T + (T - 1), block_lt hc hlast, block_div hlast, by rw [roll_div hc hlast, if_neg (by omega)]⟩

/-! ## One block after another -/

/-- the same chunk, and the same rolled chunk -/
def sameChunk (T x z : ℕ) : Prop := x / T = z / T

def sameRolled (n T x z : ℕ) : Prop := roll n T x / T = roll n T z / T

/-- a second attention with the same mask sees no further -/
theorem then_twice {N : ℕ} {f : ℕ → ℕ} {s : ℕ → ℕ → Prop} {x z : ℕ} :
    thenOn N (fun x z => f x = f z) (thenOn N (fun x z => f x = f z) s) x z ↔ thenOn N (fun x z => f x = f z) s x z := by
  constructor
  · rintro ⟨y, -, hxy, y', hy', hyy', hs⟩
    exact ⟨y', hy', hxy.trans hyy', hs⟩
  · rintro ⟨y, hy, hxy, hs⟩
    exact ⟨y, hy, hxy, y, hy, rfl, hs⟩

/-- a turn from the next chunk -/
theorem turn_next {n c z : ℕ} {d : ℤ} : (z : ℤ) ≡ ((c + 1) % n : ℕ) + d [ZMOD n] ↔ (z : ℤ) ≡ c + (d + 1) [ZMOD n] := by
  have hnext : (((c + 1) % n : ℕ) : ℤ) + d ≡ c + (d + 1) [ZMOD n] := by
    rw [show (c : ℤ) + (d + 1) = c + 1 + d by ring]
    exact (next_modEq n c).add_right d
  exact ⟨fun h => h.trans hnext, fun h => h.trans hnext.symm⟩

/-- behind a block on rolled chunks -/
theorem then_rolled (hT : 2 ≤ T) {m x z : ℕ} (hx : x < n * T) :
    thenOn (n * T) (sameRolled n T) (fun y z => Turn n (-m) m (y / T) (z / T)) x z ↔
      Turn n (-(m + 1 : ℕ)) m (roll n T x / T) (z / T) := by
  have hk : roll n T x / T < n := Nat.div_lt_of_lt_mul (by rw [Nat.mul_comm]; exact Nat.mod_lt _ (by omega))
  constructor
  · rintro ⟨y, hy, hxy, d, hlo, hhi, hmod⟩
    have hc : y / T < n := Nat.div_lt_of_lt_mul (by rwa [Nat.mul_comm] at hy)
    rcases (meets_iff hT hc).1 ⟨y, hy, rfl, hxy.symm⟩ with heq | heq
    · exact ⟨d, by push_cast; omega, hhi, by rwa [heq]⟩
    · refine ⟨d - 1, by push_cast; omega, by omega, ?_⟩
      rw [heq, turn_next, sub_add_cancel]
      exact hmod
  · rintro ⟨d, hlo, hhi, hmod⟩
    push_cast at hlo
    rcases eq_or_lt_of_le hlo with heq | hlt
    · -- furthest back: by way of the chunk before
      obtain ⟨c, hc, hkc⟩ := exists_prev hk
      obtain ⟨y, hy, rfl, hyk⟩ := (meets_iff hT hc).2 (Or.inr hkc)
      refine ⟨y, hy, hyk.symm, -m, le_rfl, by omega, ?_⟩
      rw [hkc, ← heq, turn_next] at hmod
      rwa [show -((m : ℤ) + 1) + 1 = -m by ring] at hmod
    · obtain ⟨y, hy, hyc, hyk⟩ := (meets_iff hT hk).2 (Or.inl rfl)
      exact ⟨y, hy, hyk.symm, d, by omega, hhi, by rwa [hyc]⟩

/-- behind a block on chunks -/
theorem then_chunk (hT : 2 ≤ T) {m x z : ℕ} (hx : x < n * T) :
    thenOn (n * T) (sameChunk T) (fun y z => Turn n (-(m + 1 : ℕ)) m (roll n T y / T) (z / T)) x z ↔
      Turn n (-(m + 1 : ℕ)) (m + 1 : ℕ) (x / T) (z / T) := by
  have hc : x / T < n := Nat.div_lt_of_lt_mul (by rwa [Nat.mul_comm] at hx)
  constructor
  · rintro ⟨y, hy, hxy, d, hlo, hhi, hmod⟩
    push_cast at hlo
    rcases (meets_iff hT hc).1 ⟨y, hy, hxy.symm, rfl⟩ with heq | heq
    · exact ⟨d, by push_cast; omega, by push_cast; omega, by rwa [heq] at hmod⟩
    · rw [heq, turn_next] at hmod
      exact ⟨d + 1, by push_cast; omega, by push_cast; omega, hmod⟩
  · rintro ⟨d, hlo, hhi, hmod⟩
    push_cast at hlo hhi
    rcases eq_or_lt_of_le hhi with heq | hlt
    · -- furthest on: by way of the rolled chunk after
      obtain ⟨y, hy, hyc, hyk⟩ := (meets_iff hT hc).2 (Or.inr rfl)
      refine ⟨y, hy, hyc.symm, m, by push_cast; omega, le_rfl, ?_⟩
      rwa [hyk, turn_next, ← heq]
    · obtain ⟨y, hy, hyc, hyk⟩ := (meets_iff hT hc).2 (Or.inl rfl)
      exact ⟨y, hy, hyc.symm, d, by push_cast; omega, by omega, by rwa [hyk]⟩

/-- how far the masks of so many blocks reach on an axis of n chunks of T: a turn both ways, or one chunk less on one side -/
def swinReaches (n T blocks x z : ℕ) : Prop :=
  if T < 2 ∨ blocks = 0 then x = z
  else if blocks % 2 = 1 then Turn n (-(blocks / 2 : ℕ)) (blocks / 2 : ℕ) (x / T) (z / T)
  else Turn n (-(blocks / 2 : ℕ)) ((blocks / 2 - 1 : ℕ)) (roll n T x / T) (z / T)

theorem swinReaches_odd (hT : 2 ≤ T) (m : ℕ) :
    swinReaches n T (2 * m + 1) = fun x z => Turn n (-m) m (x / T) (z / T) := by
  ext x z
  rw [swinReaches, if_neg (by omega), if_pos (by omega), show (2 * m + 1) / 2 = m by omega]

theorem swinReaches_even (hT : 2 ≤ T) (m : ℕ) :
    swinReaches n T (2 * (m + 1)) = fun x z => Turn n (-(m + 1 : ℕ)) m (roll n T x / T) (z / T) := by
  ext x z
  rw [swinReaches, if_neg (by omega), if_neg (by omega), show 2 * (m + 1) / 2 = m + 1 by omega, Nat.add_sub_cancel]

theorem swinReaches_zero : swinReaches n T 0 = Eq := by
  ext x z
  rw [swinReaches, if_pos (Or.inr rfl)]

/-- chunks of one token are not rolled -/
theorem swinReaches_one (b : ℕ) : swinReaches n 1 b = Eq := by
  ext x z
  rw [swinReaches, if_pos (Or.inl one_lt_two)]

/-- the chunk by the mask of block i, on an axis -/
def swinChunk (n T i x : ℕ) : ℕ := if i % 2 = 0 then x / T else roll n T x / T

/-- what that mask admits -/
def swinStep (n T i x z : ℕ) : Prop := swinChunk n T i x = swinChunk n T i z

theorem swinStep_even {i : ℕ} (h : i % 2 = 0) : swinStep n T i = sameChunk T := by
  ext x z
  rw [swinStep, swinChunk, swinChunk, if_pos h, if_pos h, sameChunk]

theorem swinStep_odd {i : ℕ} (h : i % 2 = 1) : swinStep n T i = sameRolled n T := by
  ext x z
  rw [swinStep, swinChunk, swinChunk, if_neg (by omega), if_neg (by omega), sameRolled]

theorem swinStep_one {i x z : ℕ} (hx : x < n) (hz : z < n) : swinStep n 1 i x z ↔ x = z := by
  have hroll : ∀ y < n, roll n 1 y = y := fun y hy => by
    rw [roll, Nat.mul_one]
    exact Nat.mod_eq_of_lt hy
  rcases Nat.mod_two_eq_zero_or_one i with h | h
  · rw [swinStep_even h, sameChunk, Nat.div_one, Nat.div_one]
  · rw [swinStep_odd h, sameRolled, hroll x hx, hroll z hz, Nat.div_one, Nat.div_one]

/-- **One more block.** By its place in the alternation. -/
theorem swinReaches_succ {b x z : ℕ} (hx : x < n * T) (hz : z < n * T) :
    thenOn (n * T) (swinStep n T b) (swinReaches n T b) x z ↔ swinReaches n T (b + 1) x z := by
  rcases Nat.lt_or_ge T 2 with hone | hT
  · obtain rfl : T = 1 := by
      have hpos : 0 < T := Nat.pos_of_mul_pos_left ((Nat.zero_le x).trans_lt hx)
      omega
    rw [Nat.mul_one] at hx hz ⊢
    rw [swinReaches_one, swinReaches_one]
    constructor
    · rintro ⟨y, hy, hxy, rfl⟩
      exact (swinStep_one hx hy).1 hxy
    · rintro rfl
      exact ⟨x, hx, (swinStep_one hx hx).2 rfl, rfl⟩
  · obtain ⟨m, rfl | rfl⟩ : ∃ m, b = 2 * m ∨ b = 2 * m + 1 := ⟨b / 2, by omega⟩
    · rw [swinStep_even (by omega), swinReaches_odd hT]
      rcases m with _ | m
      · have hc : x / T < n := Nat.div_lt_of_lt_mul (by rwa [Nat.mul_comm] at hx)
        have hc' : z / T < n := Nat.div_lt_of_lt_mul (by rwa [Nat.mul_comm] at hz)
        rw [swinReaches_zero, Nat.cast_zero, neg_zero]
        refine Iff.trans ?_ (turn_zero hc hc').symm
        constructor
        · rintro ⟨y, -, hxy, rfl⟩
          exact hxy
        · exact fun h => ⟨z, hz, h, rfl⟩
      · rw [swinReaches_even hT]
        exact then_chunk hT hx
    · rw [swinStep_odd (by omega), swinReaches_odd hT, show 2 * m + 1 + 1 = 2 * (m + 1) by ring, swinReaches_even hT]
      exact then_rolled hT hx

end Axis

/-! ## The masks -/

section Masks

variable {g : Grid}

/-- on each axis, the tokens take all places of the clip -/
theorem position_fills : Fills (Place.position (g := g)) fun a => g.chunks a * g.tile a where
  below p a := p.position_lt a
  all x hx := by
    have hdiv : ∀ a, x a / g.tile a < g.chunks a := fun a => Grid.div_tile_lt (hx a)
    have hmod : ∀ a, x a % g.tile a < g.tile a := fun a =>
      Nat.mod_lt _ (Nat.pos_of_mul_pos_left ((Nat.zero_le _).trans_lt (hx a)))
    refine ⟨⟨⟨_, hdiv .t⟩, ⟨_, hdiv .h⟩, ⟨_, hdiv .w⟩, ⟨_, hmod .t⟩, ⟨_, hmod .h⟩, ⟨_, hmod .w⟩⟩, ?_⟩
    ext a
    cases a <;> exact Nat.div_add_mod' _ _

theorem position_div (p : Place g) (a : Axis) : p.position a / g.tile a = p.chunk a := by
  cases a
  · exact block_div p.t.isLt
  · exact block_div p.h.isLt
  · exact block_div p.w.isLt

/-- a token is known by its place in the clip -/
theorem along_position_eq : Along (Place.position (g := g)) (fun _ => Eq) = Eq := by
  ext p q
  constructor
  · intro h
    have hchunk : ∀ a, p.chunk a = q.chunk a := fun a => by rw [← position_div, ← position_div, h a]
    have ht := h .t
    have hh := h .h
    have hw := h .w
    simp only [Place.position] at ht hh hw
    have htc : (p.nt : ℕ) = q.nt := hchunk .t
    have hhc : (p.nh : ℕ) = q.nh := hchunk .h
    have hwc : (p.nw : ℕ) = q.nw := hchunk .w
    rw [htc, Nat.add_left_cancel_iff] at ht
    rw [hhc, Nat.add_left_cancel_iff] at hh
    rw [hwc, Nat.add_left_cancel_iff] at hw
    exact Place.ext (Fin.ext htc) (Fin.ext hhc) (Fin.ext hwc) (Fin.ext ht) (Fin.ext hh) (Fin.ext hw)
  · rintro rfl
    exact fun _ => rfl

/-- the mask of block i -/
theorem admits_swin (g : Grid) (i : ℕ) :
    admits (g := g) (some (if i % 2 = 0 then sameMaskMod (pad g (-1) (idToChunk g))
      else sameMaskMod (pad g (-2) (idToSwin g)))) =
      Along Place.position fun a => swinStep (g.chunks a) (g.tile a) i := by
  rcases Nat.mod_two_eq_zero_or_one i with h | h
  · simp only [swinStep_even h, if_pos h]
    exact admits_idToChunk
  · simp only [swinStep_odd h, h, one_ne_zero, if_false]
    exact admits_idToSwin

/-- **Shifted windows.** How far the attentions of so many blocks reach, axis by axis. -/
theorem reach_swin (g : Grid) (blocks : ℕ) :
    reach (((swinAttentionMask blocks g).flatMap Masks.attentions).map (admits (g := g))) =
      Along Place.position fun a => swinReaches (g.chunks a) (g.tile a) blocks := by
  induction blocks with
  | zero =>
    simp only [swinReaches_zero, along_position_eq]
    rfl
  | succ b ih =>
    have hsnoc : ((swinAttentionMask (b + 1) g).flatMap Masks.attentions).map (admits (g := g)) =
        ((swinAttentionMask b g).flatMap Masks.attentions).map (admits (g := g)) ++
          [Along Place.position fun a => swinStep (g.chunks a) (g.tile a) b] ++
          [Along Place.position fun a => swinStep (g.chunks a) (g.tile a) b] := by
      rw [← admits_swin]
      simp [swinAttentionMask, List.range_succ, Masks.attentions]
    rw [hsnoc, reach_snoc, reach_snoc, ih, along_comp position_fills, along_comp position_fills]
    refine along_congr position_fills fun a x z hx hz => ?_
    exact then_twice.trans (swinReaches_succ hx hz)

end Masks

end Viduce.Transformer
