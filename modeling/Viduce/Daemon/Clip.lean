/-
The conditioning clip in closed form. `_prepare_lq_and_msk` makes a mask of the window by a stride, a pad and a cut, and a
clip by a matrix of distances and an argmin with ties; what comes out depends on the number of keyframes with a place in
the window only.

- `keyframesInWindow_eq`: that number is min(T, ceil(N / sf)).
- `halfDown_div_nearest`, `nearestKept_eq`: frame t of the clip is keyframe min(t / sf rounded to nearest, a half going
  down; the last one).
- `count_take_keyframeMask`: the number of keyframes in front of a keyframe, which is what the 'pad' mode goes by.
- `conditioning_clip`: the mask, the clip, and what follows for its frames.
-/
import Mathlib.Tactic
import Viduce.Core.Rounding
import Viduce.Daemon.Keyframes

namespace Viduce.Clip

open Viduce.SessionRunner Viduce.Temporal Viduce.Session

theorem keyframesInWindow_eq (T N : ℕ) {sf : ℕ} (hsf : 0 < sf) :
    keyframesInWindow T sf N = min T ⌈(N : ℚ) / sf⌉₊ := by
  have hsf' : (0 : ℚ) < sf := Nat.cast_pos.2 hsf
  refine eq_of_forall_lt_iff fun i => ?_
  rw [lt_keyframesInWindow hsf, lt_min_iff, Nat.lt_ceil, lt_div_iff₀ hsf']
  norm_cast

theorem keyframesInWindow_pos {T sf N : ℕ} (hT : 0 < T) (hsf : 0 < sf) (hN : 0 < N) : 0 < keyframesInWindow T sf N := by
  rw [lt_keyframesInWindow hsf]
  simpa using ⟨hT, hN⟩

/-- **The mask.** It is set at the places of the keyframes in the window. -/
theorem repeatMask_get {T sf N : ℕ} (hsf : 0 < sf) (h w p y z : ℕ) :
    (repeatMask (keyframeMask T sf N) h w).get [p, y, z] = true ↔ ∃ i < keyframesInWindow T sf N, p = i * sf := by
  have hget : (repeatMask (keyframeMask T sf N) h w).get [p, y, z] = true ↔ (keyframeMask T sf N)[p]? = some true := by
    simp only [repeatMask, List.headD_cons, List.getD_eq_getElem?_getD]
    cases (keyframeMask T sf N)[p]? <;> simp
  rw [hget, ← mem_keptIndices, keptIndices_keyframeMask T N hsf, List.mem_map]
  simp only [List.mem_range, eq_comm]

/-! ## The clip -/

/-- the keyframe that frame t of the clip shows -/
def shown (T sf N t : ℕ) : ℕ := min (halfDown ((t : ℚ) / sf)) (keyframesInWindow T sf N - 1)

/-- t / sf to the nearest, and the smaller of two -/
theorem halfDown_div_nearest (t sf : ℕ) :
    |(t : ℚ) / sf - halfDown ((t : ℚ) / sf)| ≤ 1 / 2 ∧
      ∀ j : ℕ, (t : ℚ) / sf = j + 1 / 2 → halfDown ((t : ℚ) / sf) = j := by
  constructor
  · apply abs_sub_halfDown
    positivity
  · intro j hj
    rw [hj]
    exact halfDown_half j

theorem shown_mono (T sf N : ℕ) {t t' : ℕ} (h : t ≤ t') : shown T sf N t ≤ shown T sf N t' := by
  have hdiv : (t : ℚ) / sf ≤ (t' : ℚ) / sf := by gcongr
  exact min_le_min_right _ (halfDown_mono hdiv)

theorem shown_lt {T sf N : ℕ} (hK : 0 < keyframesInWindow T sf N) (t : ℕ) : shown T sf N t < keyframesInWindow T sf N :=
  lt_of_le_of_lt (min_le_right _ _) (Nat.sub_lt hK Nat.one_pos)

theorem shown_keyframe {T sf N i : ℕ} (hsf : 0 < sf) (hi : i < keyframesInWindow T sf N) : shown T sf N (i * sf) = i := by
  have hsf' : (sf : ℚ) ≠ 0 := Nat.cast_ne_zero.2 hsf.ne'
  rw [shown, Nat.cast_mul, mul_div_cancel_right₀ _ hsf', halfDown_natCast]
  exact min_eq_left (Nat.le_sub_one_of_lt hi)

/-- no keyframe is nearer than the shown one, and none before it is as near -/
theorem nearest_shown {T sf N t : ℕ} (hsf : 0 < sf) {i : ℕ} (hi : i < keyframesInWindow T sf N) :
    ((t : ℤ) - (shown T sf N t * sf : ℕ)).natAbs ≤ ((t : ℤ) - (i * sf : ℕ)).natAbs ∧
      (i < shown T sf N t → ((t : ℤ) - (shown T sf N t * sf : ℕ)).natAbs < ((t : ℤ) - (i * sf : ℕ)).natAbs) := by
  set j := halfDown ((t : ℚ) / sf) with hj
  set k := shown T sf N t with hk
  have hkj : k ≤ j := min_le_left _ _
  -- t is less than half a stride above the place of the shown one, or the shown one is the last
  have hbelow : i ≤ k ∨ 2 * t ≤ 2 * (k * sf) + sf := by
    rcases le_total j (keyframesInWindow T sf N - 1) with h | h
    · have hkeq : k = j := min_eq_left h
      exact Or.inr ((halfDown_div_le_iff (K := ℚ) hsf).1 (hkeq ▸ le_rfl))
    · have hkeq : k = keyframesInWindow T sf N - 1 := min_eq_right h
      exact Or.inl (by omega)
  -- and less than half a stride below it
  have habove : k = 0 ∨ 2 * (k * sf) < 2 * t + sf := by
    rcases Nat.eq_zero_or_pos k with h0 | hpos
    · exact Or.inl h0
    · obtain ⟨p, hp⟩ := Nat.exists_eq_succ_of_ne_zero hpos.ne'
      have hlt : ¬ j ≤ p := by omega
      rw [hj, halfDown_div_le_iff (K := ℚ) hsf] at hlt
      have hplace : k * sf = p * sf + sf := by rw [hp, Nat.succ_mul]
      exact Or.inr (by omega)
  rcases Nat.lt_trichotomy i k with hik | hik | hki
  · have hplace : i * sf + sf ≤ k * sf := by
      rw [← Nat.succ_mul]
      exact Nat.mul_le_mul_right sf hik
    have hlt : ((t : ℤ) - (k * sf : ℕ)).natAbs < ((t : ℤ) - (i * sf : ℕ)).natAbs := by omega
    exact ⟨hlt.le, fun _ => hlt⟩
  · rw [hik]
    exact ⟨le_rfl, fun h => absurd h (lt_irrefl k)⟩
  · have hplace : k * sf + sf ≤ i * sf := by
      rw [← Nat.succ_mul]
      exact Nat.mul_le_mul_right sf hki
    exact ⟨by omega, fun h => absurd h (by omega)⟩

/-- **The frame shown.** -/
theorem nearestKept_eq {T sf N t : ℕ} (hsf : 0 < sf) (hK : 0 < keyframesInWindow T sf N) (ht : t < N) :
    (nearestKept (keyframeMask T sf N)).getD t 0 = shown T sf N t := by
  rw [nearestKept_getD (by simpa using ht), keptIndices_keyframeMask T N hsf]
  have hlt := shown_lt hK t
  refine argmin_eq (by simpa using hlt) ?_ ?_
  · intro v hv
    simp only [List.map_map, List.mem_map, List.mem_range, Function.comp_apply] at hv
    obtain ⟨i, hi, rfl⟩ := hv
    simpa using (nearest_shown (t := t) hsf hi).1
  · intro i hi
    simpa using (nearest_shown (t := t) hsf (hi.trans hlt)).2 hi

/-! ## The 'pad' mode -/

/-- the set positions in front of p, counted -/
theorem count_take (msk : List Bool) (p : ℕ) :
    (msk.take p).count true = ((List.range p).filter fun i => msk.getD i false).length := by
  induction p with
  | zero => simp
  | succ p ih =>
    rw [List.range_succ, List.filter_append, List.length_append, ← ih, List.take_add_one, List.count_append]
    cases h : msk[p]? with
    | none => simp [List.getD_eq_getElem?_getD, h]
    | some b => cases b <;> simp [List.getD_eq_getElem?_getD, h]

/-- the keyframes in front of keyframe i are i -/
theorem count_take_keyframeMask {T sf N i : ℕ} (hsf : 0 < sf) (hi : i < keyframesInWindow T sf N) :
    ((keyframeMask T sf N).take (i * sf)).count true = i := by
  have hsorted : ((List.range (i * sf)).filter fun j => (keyframeMask T sf N).getD j false).Pairwise (· < ·) :=
    List.pairwise_lt_range.filter _
  have hmultiples : ((List.range i).map (· * sf)).Pairwise (· < ·) :=
    List.pairwise_lt_range.map _ fun a b hab => Nat.mul_lt_mul_of_pos_right hab hsf
  have hsame : ((List.range (i * sf)).filter fun j => (keyframeMask T sf N).getD j false) = (List.range i).map (· * sf) := by
    refine hsorted.eq_of_mem_iff hmultiples fun j => ?_
    rw [List.mem_filter, List.mem_range, List.mem_map, List.getD_eq_getElem?_getD]
    obtain ⟨hiT, hiN⟩ := (lt_keyframesInWindow hsf).1 hi
    constructor
    · intro h
      obtain ⟨hlt, hset⟩ := h
      have hget : (keyframeMask T sf N)[j]? = some true := by
        cases hj : (keyframeMask T sf N)[j]? with
        | none => simp [hj] at hset
        | some b => simpa [hj] using hset
      obtain ⟨-, -, q, rfl⟩ := keyframeMask_getElem?.1 hget
      rw [Nat.mul_comm sf q] at hlt
      exact ⟨q, List.mem_range.2 (Nat.lt_of_mul_lt_mul_right hlt), Nat.mul_comm q sf⟩
    · intro h
      obtain ⟨q, hq, rfl⟩ := h
      have hqi : q * sf < i * sf := Nat.mul_lt_mul_of_pos_right (List.mem_range.1 hq) hsf
      have hget : (keyframeMask T sf N)[q * sf]? = some true :=
        keyframeMask_getElem?.2 ⟨hqi.trans hiN, hqi.trans (Nat.mul_lt_mul_of_pos_right hiT hsf), Nat.dvd_mul_left sf q⟩
      exact ⟨hqi, by simp [hget]⟩
  rw [count_take, hsame, List.length_map, List.length_range]

/-- padding with all keyframes in the window: keyframe i is at its place -/
theorem pad_keyframe {x : Tensor UInt8} {T sf N : ℕ} (hsf : 0 < sf) (hx : x.dim0 = T)
    (hall : keyframesInWindow T sf N = T) :
    ∃ clip, upsampleTemporal 0 x (keyframeMask T sf N) .pad = .ok clip ∧
      ∀ i < T, ∀ idx, clip.get (i * sf :: idx) = x.get (i :: idx) := by
  have hn : (keptIndices (keyframeMask T sf N)).length = T := by
    rw [keptIndices_keyframeMask T N hsf, List.length_map, List.length_range, hall]
  simp only [upsampleTemporal, hx, hn, true_or, if_true]
  refine ⟨_, rfl, ?_⟩
  intro i hi idx
  have hi' : i < keyframesInWindow T sf N := by rwa [hall]
  have hset : (keyframeMask T sf N)[i * sf]? = some true :=
    keyframeMask_getElem?.2 ⟨((lt_keyframesInWindow hsf).1 hi').2, Nat.mul_lt_mul_of_pos_right hi hsf, Nat.dvd_mul_left sf i⟩
  simp only [List.getD_eq_getElem?_getD, hset, Option.getD_some, if_true, count_take_keyframeMask hsf hi']
  -- a single frame is broadcast
  split_ifs with hone
  · have hzero : i = 0 := by omega
    rw [hzero]
  · rfl

/-! ## The closed form -/

variable {V : Type}

/-- **The conditioning clip.** With K keyframes in the window, the mask is set at the multiples of the scale factor below
K times it; frame t of the clip is the normalised keyframe `shown`, which does not go down, takes every value below K, is i
at the place of keyframe i, and is there what the 'pad' mode stores if K is T. -/
theorem conditioning_clip (s : SkipConcatSession V) (hsf : 0 < s.temporalSf) {x : Tensor UInt8} {T c h w N : ℕ}
    (hx : x.shape = [T, c, h, w]) (hT : 0 < T) (hN : 0 < N) :
    keyframesInWindow T s.temporalSf N = min T ⌈(N : ℚ) / s.temporalSf⌉₊ ∧
    ∃ lq msk, s.prepareLqAndMsk x N = .ok (lq, msk, h, w) ∧
      (msk.shape = [N, h, w] ∧ ∀ p < N, ∀ y z,
        msk.get [p, y, z] = true ↔ ∃ i < keyframesInWindow T s.temporalSf N, p = i * s.temporalSf) ∧
      (lq.shape = [N, c, h, w] ∧ ∀ t < N, ∀ idx,
        lq.get (t :: idx) = (normalise x).get (shown T s.temporalSf N t :: idx)) ∧
      (∀ t t', t ≤ t' → shown T s.temporalSf N t ≤ shown T s.temporalSf N t') ∧
      (∀ i, i < keyframesInWindow T s.temporalSf N ↔ ∃ t < N, shown T s.temporalSf N t = i) ∧
      (∀ i < keyframesInWindow T s.temporalSf N,
        i * s.temporalSf < N ∧ shown T s.temporalSf N (i * s.temporalSf) = i) ∧
      (keyframesInWindow T s.temporalSf N = T →
        ∃ clip, upsampleTemporal 0 x (keyframeMask T s.temporalSf N) .pad = .ok clip ∧
          ∀ p < N, (∀ y z, msk.get [p, y, z] = true) → ∀ idx, lq.get (p :: idx) = (normalise clip).get (p :: idx)) := by
  have hK := keyframesInWindow_pos hT hsf hN
  have hplace : ∀ i < keyframesInWindow T s.temporalSf N, i * s.temporalSf < N := fun i hi =>
    ((lt_keyframesInWindow hsf).1 hi).2
  set k := keyframeMask T s.temporalSf N with hk
  have hne : keptIndices k ≠ [] := List.ne_nil_of_mem (zero_mem_keptIndices hT hsf hN)
  have hle : (keptIndices k).length ≤ T := keptIndices_keyframeMask_le N hsf
  have hup := upsampleTemporal_nearest (0 : UInt8) x hne (by simpa [Tensor.dim0, hx] using hle)
  have hmask : ∀ p < N, ∀ y z, (repeatMask k h w).get [p, y, z] = true ↔
      ∃ i < keyframesInWindow T s.temporalSf N, p = i * s.temporalSf := fun p _ => repeatMask_get hsf h w p
  have hframe : ∀ t < N, ∀ idx, (normalise (x.indexSelect (nearestKept k))).get (t :: idx) =
      (normalise x).get (shown T s.temporalSf N t :: idx) := by
    intro t ht idx
    simp only [normalise, Tensor.map, Tensor.indexSelect, hk, nearestKept_eq hsf hK ht]
  refine ⟨keyframesInWindow_eq T N hsf, normalise (x.indexSelect (nearestKept k)), repeatMask k h w, ?_, ⟨?_, hmask⟩,
    ⟨?_, hframe⟩, fun t t' => shown_mono T s.temporalSf N, ?_, ?_, ?_⟩
  · simp only [SkipConcatSession.prepareLqAndMsk, hx, ← hk, hup]
    rfl
  · simp [repeatMask, hk]
  · simp [normalise, Tensor.map, Tensor.indexSelect, nearestKept, hk, hx]
  · intro i
    constructor
    · intro hi
      exact ⟨i * s.temporalSf, hplace i hi, shown_keyframe hsf hi⟩
    · intro hi
      obtain ⟨t, -, rfl⟩ := hi
      exact shown_lt hK t
  · intro i hi
    exact ⟨hplace i hi, shown_keyframe hsf hi⟩
  · intro hall
    obtain ⟨clip, hclip, hpad⟩ := pad_keyframe (x := x) hsf (by rw [Tensor.dim0, hx]; rfl) hall
    refine ⟨clip, hclip, ?_⟩
    intro p hp hset idx
    obtain ⟨i, hi, rfl⟩ := (hmask p hp 0 0).1 (hset 0 0)
    rw [hframe _ hp, shown_keyframe hsf hi]
    simp only [normalise, Tensor.map, hpad i (hall ▸ hi)]

/-- fifteen frames at scale factor 4 in the window of 60 -/
theorem fifteen_frames_clip :
    keyframesInWindow 15 4 60 = 15 ∧ (∀ i < 15, shown 15 4 60 (i * 4) = i) ∧
      ∃ lq msk, (SkipConcatSession.init Unit ⟨4, 10⟩).prepareLqAndMsk ⟨[15, 3, 1, 1], fun _ => 0⟩ 60 = .ok (lq, msk, 1, 1) ∧
        lq.shape = [60, 3, 1, 1] := by
  obtain ⟨-, lq, msk, hprep, -, ⟨hshape, -⟩, -, -, hplace, -⟩ :=
    conditioning_clip (SkipConcatSession.init Unit ⟨4, 10⟩) (by decide) (x := ⟨[15, 3, 1, 1], fun _ => 0⟩) (N := 60) rfl
      (by decide) (by decide)
  have hall : keyframesInWindow 15 4 60 = 15 := by decide
  exact ⟨hall, fun i hi => (hplace i (hall.symm ▸ hi)).2, lq, msk, hprep, hshape⟩

end Viduce.Clip
