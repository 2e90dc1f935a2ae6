/-
Straight paths between two points and the Euler steps along them, the shift that warps the times of a schedule, and moving
averages. Nothing here names a program.

- `lineMap_step`: an Euler step with the constant velocity of the path goes from a point of the path to another one.
- `path_step`, `path_zero`, `path_one`: the same for a list of paths travelled together.
- `shift_pos`, `shift_strictMonoOn`: the shift has a positive denominator on [0, 1] and keeps the order there; it fixes
  both ends (`shift_zero`, `shift_one`).
- `grid_anti`: the evenly spaced times from 1 down to 0.
- `movingAverage_snoc`: the average that weighs the past by a power, one step at a time.
-/
import Mathlib.Tactic
import Mathlib.LinearAlgebra.AffineSpace.AffineMap

namespace Viduce.Flow

open AffineMap

/-! ## Paths -/

section Paths

variable {K V : Type} [CommRing K] [AddCommGroup V] [Module K V]

/-- a step of length t' - t with velocity x1 - x0 goes along the line from its point at t to its point at t' -/
theorem lineMap_step (x0 x1 : V) (t t' : K) :
    lineMap x0 x1 t + (t' - t) • (x1 - x0) = lineMap x0 x1 t' := by
  calc lineMap x0 x1 t + (t' - t) • (x1 - x0)
      = t • (x1 - x0) + x0 + (t' - t) • (x1 - x0) := by rw [lineMap_apply_module']
    _ = t' • (x1 - x0) + x0 := by rw [sub_smul]; abel
    _ = lineMap x0 x1 t' := (lineMap_apply_module' x0 x1 t').symm

/-- points of several lines at one time -/
def path (x0 x1 : List V) (t : K) : List V := List.zipWith (fun a b => lineMap a b t) x0 x1

/-- their velocities -/
def velocity (x0 x1 : List V) : List V := List.zipWith (fun a b => b - a) x0 x1

theorem path_length {x0 x1 : List V} (h : x1.length = x0.length) (t : K) : (path x0 x1 t).length = x0.length := by
  simp [path, h]

theorem path_zero {x0 x1 : List V} (h : x1.length = x0.length) : path x0 x1 (0 : K) = x0 := by
  induction x0 generalizing x1 with
  | nil => simp [path]
  | cons a x0 ih =>
    cases x1 with
    | nil => simp at h
    | cons b x1 =>
      simp only [List.length_cons, Nat.add_right_cancel_iff] at h
      simpa [path] using ih h

theorem path_one {x0 x1 : List V} (h : x1.length = x0.length) : path x0 x1 (1 : K) = x1 := by
  induction x0 generalizing x1 with
  | nil =>
    rw [List.length_nil, List.length_eq_zero_iff] at h
    simp [path, h]
  | cons a x0 ih =>
    cases x1 with
    | nil => simp at h
    | cons b x1 =>
      simp only [List.length_cons, Nat.add_right_cancel_iff] at h
      simpa [path] using ih h

/-- an Euler step of all of them -/
theorem path_step (x0 x1 : List V) (t t' : K) :
    List.zipWith (fun x v => x + (t' - t) • v) (path x0 x1 t) (velocity x0 x1) = path x0 x1 t' := by
  induction x0 generalizing x1 with
  | nil => simp [path]
  | cons a x0 ih =>
    cases x1 with
    | nil => simp [path]
    | cons b x1 =>
      simp only [path, velocity, List.zipWith_cons_cons, lineMap_step, List.cons.injEq, true_and]
      exact ih x1

end Paths

/-! ## Times -/

section Times

variable {K : Type} [Field K]

/-- the time t, shifted by the factor s -/
def shift (s t : K) : K := s * t / (1 + (s - 1) * t)

@[simp] theorem shift_zero (s : K) : shift s 0 = 0 := by simp [shift]

theorem shift_one {s : K} (hs : s ≠ 0) : shift s 1 = 1 := by simp [shift, hs]

variable [LinearOrder K] [IsStrictOrderedRing K]

/-- the denominator is between 1 and s -/
theorem shift_pos {s t : K} (hs : 0 < s) (h0 : 0 ≤ t) (h1 : t ≤ 1) : 0 < 1 + (s - 1) * t := by
  have hmix : 1 + (s - 1) * t = (1 - t) + s * t := by ring
  rw [hmix]
  rcases h0.eq_or_lt with rfl | hpos
  · simp
  · have hst : 0 < s * t := mul_pos hs hpos
    linarith

/-- **The shift keeps the order of times.** -/
theorem shift_strictMonoOn {s : K} (hs : 0 < s) : StrictMonoOn (shift s) (Set.Icc 0 1) := by
  intro a ha b hb hab
  have hda := shift_pos hs ha.1 ha.2
  have hdb := shift_pos hs hb.1 hb.2
  unfold shift
  rw [div_lt_div_iff₀ hda hdb]
  -- the mixed terms of the two cross products are the same
  have hcross : s * b * (1 + (s - 1) * a) - s * a * (1 + (s - 1) * b) = s * (b - a) := by ring
  have hgap : 0 < s * (b - a) := mul_pos hs (sub_pos.2 hab)
  linarith

/-- time number i of n equal steps from 1 down to 0 -/
def grid (n i : ℕ) : K := 1 - i / n

theorem grid_zero (n : ℕ) : (grid n 0 : K) = 1 := by simp [grid]

theorem grid_last {n : ℕ} (hn : 0 < n) : (grid n n : K) = 0 := by
  have hne : (n : K) ≠ 0 := Nat.cast_ne_zero.2 hn.ne'
  rw [grid, div_self hne, sub_self]

theorem grid_anti {n : ℕ} (hn : 0 < n) {i j : ℕ} (hij : i < j) : (grid n j : K) < grid n i := by
  have hn' : (0 : K) < n := Nat.cast_pos.2 hn
  have hij' : (i : K) < j := Nat.cast_lt.2 hij
  apply sub_lt_sub_left
  exact div_lt_div_of_pos_right hij' hn'

theorem grid_mem {n i : ℕ} (hn : 0 < n) (hi : i ≤ n) : (grid n i : K) ∈ Set.Icc (0 : K) 1 := by
  have hn' : (0 : K) < n := Nat.cast_pos.2 hn
  have hi' : (i : K) ≤ n := Nat.cast_le.2 hi
  constructor
  · exact sub_nonneg.2 ((div_le_one hn').2 hi')
  · exact sub_le_self 1 (div_nonneg (Nat.cast_nonneg i) hn'.le)

/-- a shifted grid goes down at each step -/
theorem shift_grid_anti {s : K} (hs : 0 < s) {n i j : ℕ} (hn : 0 < n) (hij : i < j) (hj : j ≤ n) :
    shift s (grid n j) < shift s (grid n i : K) :=
  shift_strictMonoOn hs (grid_mem hn hj) (grid_mem hn (hij.le.trans hj)) (grid_anti hn hij)

end Times

/-! ## Moving averages -/

section Averages

variable {K V : Type} [CommRing K] [AddCommGroup V] [Module K V]

/-- v, and then the entries of a list; each step takes a share 1 - d of the new entry -/
def movingAverage (d : K) (v : V) (l : List V) : V :=
  d ^ l.length • v + ∑ i ∈ Finset.range l.length, ((1 - d) * d ^ (l.length - 1 - i)) • l.getD i 0

@[simp] theorem movingAverage_nil (d : K) (v : V) : movingAverage d v [] = v := by simp [movingAverage]

/-- one more entry: the past counts d times as much -/
theorem movingAverage_snoc (d : K) (v : V) (l : List V) (x : V) :
    movingAverage d v (l ++ [x]) = d • movingAverage d v l + (1 - d) • x := by
  have hpast : ∀ i ∈ Finset.range l.length, ((1 - d) * d ^ (l.length - i)) • (l ++ [x]).getD i 0 =
      d • (((1 - d) * d ^ (l.length - 1 - i)) • l.getD i 0) := by
    intro i hi
    have hlt := Finset.mem_range.1 hi
    have hpow : d ^ (l.length - i) = d * d ^ (l.length - 1 - i) := by
      rw [← pow_succ']
      congr 1
      omega
    rw [List.getD_eq_getElem?_getD, List.getElem?_append_left hlt, ← List.getD_eq_getElem?_getD, hpow, smul_smul]
    congr 1
    ring
  have hlast : (l ++ [x]).getD l.length 0 = x := by simp [List.getD_eq_getElem?_getD]
  rw [movingAverage, List.length_append, List.length_singleton, Nat.add_sub_cancel, Finset.sum_range_succ,
    Finset.sum_congr rfl hpast, hlast, Nat.sub_self, pow_zero, mul_one, ← Finset.smul_sum, movingAverage, smul_add, smul_smul,
    ← pow_succ', add_assoc]

end Averages

end Viduce.Flow
