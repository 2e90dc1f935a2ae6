/-
Rounding to the nearest: a nonnegative number to a natural number, a half going down (`halfDown`), and Mathlib's `round`, a
half going up. Nothing here names a program.

- `halfDown_le_iff`: the result is at most j exactly when the number is at most j + 1/2, from which the rest follows.
- `halfDown_mono`, `halfDown_natCast`, `abs_sub_halfDown`, `halfDown_half`: it keeps the order and natural numbers, is within
  a half, and takes the smaller one of two.
- `round_mono`, `round_mem_Icc`: `round` keeps the order, and so stays between whole numbers.
-/
import Mathlib.Tactic
import Mathlib.Algebra.Order.Floor.Semiring

namespace Viduce

variable {K : Type} [Field K] [LinearOrder K] [IsStrictOrderedRing K]

section
variable [FloorSemiring K]

def halfDown (q : K) : ℕ := ⌈q - 1 / 2⌉₊

theorem halfDown_le_iff {q : K} {j : ℕ} : halfDown q ≤ j ↔ q ≤ j + 1 / 2 := by
  rw [halfDown, Nat.ceil_le, sub_le_iff_le_add]

theorem lt_halfDown_iff {q : K} {j : ℕ} : j < halfDown q ↔ j + 1 / 2 < q := by
  rw [← not_le, halfDown_le_iff, not_le]

theorem halfDown_mono {p q : K} (h : p ≤ q) : halfDown p ≤ halfDown q :=
  Nat.ceil_mono (sub_le_sub_right h _)

theorem halfDown_natCast (n : ℕ) : halfDown (n : K) = n := by
  apply le_antisymm
  · rw [halfDown_le_iff]
    linarith
  · cases n with
    | zero => exact Nat.zero_le _
    | succ n =>
      rw [Nat.succ_le_iff, lt_halfDown_iff, Nat.cast_succ]
      linarith

/-- **Nearest.** -/
theorem abs_sub_halfDown {q : K} (hq : 0 ≤ q) : |q - halfDown q| ≤ 1 / 2 := by
  have hup : q ≤ halfDown q + 1 / 2 := halfDown_le_iff.1 le_rfl
  rw [abs_le]
  constructor
  · rcases Nat.eq_zero_or_pos (halfDown q) with h0 | hpos
    · rw [h0, Nat.cast_zero]
      linarith
    · obtain ⟨j, hj⟩ := Nat.exists_eq_succ_of_ne_zero hpos.ne'
      have hdown : (j : K) + 1 / 2 < q := lt_halfDown_iff.1 (by omega)
      rw [hj, Nat.cast_succ]
      linarith
  · linarith

/-- a half goes down -/
theorem halfDown_half (n : ℕ) : halfDown ((n : K) + 1 / 2) = n := by
  apply le_antisymm
  · exact halfDown_le_iff.2 le_rfl
  · calc n = halfDown (n : K) := (halfDown_natCast n).symm
      _ ≤ halfDown ((n : K) + 1 / 2) := halfDown_mono (by linarith)

/-- the nearest multiple of a positive number, in whole numbers -/
theorem halfDown_div_le_iff {t d j : ℕ} (hd : 0 < d) : halfDown ((t : K) / d) ≤ j ↔ 2 * t ≤ 2 * (j * d) + d := by
  have hd' : (0 : K) < d := Nat.cast_pos.2 hd
  rw [halfDown_le_iff, div_le_iff₀ hd', ← Nat.cast_le (α := K)]
  push_cast
  constructor
  · intro h
    linarith
  · intro h
    linarith

end

/-! ## A half going up -/

variable [FloorRing K]

theorem round_mono {p q : K} (h : p ≤ q) : round p ≤ round q := by
  rw [round_eq, round_eq]
  exact Int.floor_mono (add_le_add_left h _)

theorem round_mem_Icc {q : K} {a b : ℤ} (ha : (a : K) ≤ q) (hb : q ≤ b) : a ≤ round q ∧ round q ≤ b := by
  constructor
  · calc a = round (a : K) := (round_intCast a).symm
      _ ≤ round q := round_mono ha
  · calc round q ≤ round (b : K) := round_mono hb
      _ = b := round_intCast b

end Viduce
