/-
Which staged keyframes the conditioning clip shows. The window has 60 positions and keyframe i belongs at position i * sf;
the mask is cut to the window and the frames past it are never looked at, while a chunk may stage 30 frames at every scale
factor.

- `keptIndices_keyframeMask`: the mask is set at the multiples of sf inside the window.
- `uses_iff`: keyframe i is used exactly when its position is in the window.
- `keyframes_used_iff`: an answered chunk has used all its keyframes exactly when the last one is in the window.
- `sixteenth_keyframe_ignored`: sixteen keyframes at scale factor 4 are answered, and the last one is nowhere in the clip.
-/
import Mathlib.Tactic
import Viduce.Daemon.Output

namespace Viduce.Session

open Viduce.Chunks Viduce.Run Viduce.SessionRunner Viduce.Shm Viduce.Temporal

variable {V : Type}

/-! ## The mask -/

/-- the number of keyframes with a position in a window of n -/
def keyframesInWindow (t sf n : ℕ) : ℕ := min t ((n + sf - 1) / sf)

theorem lt_keyframesInWindow {t sf n i : ℕ} (hsf : 0 < sf) : i < keyframesInWindow t sf n ↔ i < t ∧ i * sf < n := by
  rw [keyframesInWindow, lt_min_iff, Nat.lt_iff_add_one_le (n := (n + sf - 1) / sf), Nat.le_div_iff_mul_le hsf,
    Nat.add_mul, Nat.one_mul]
  omega

theorem keyframeMask_getElem? {t sf n i : ℕ} : (keyframeMask t sf n)[i]? = some true ↔ i < n ∧ i < t * sf ∧ sf ∣ i := by
  refine ⟨?_, ?_⟩
  · intro h
    obtain ⟨hlt, -⟩ := List.getElem?_eq_some_iff.1 h
    rw [keyframeMask_length] at hlt
    exact ⟨hlt, keyframeMask_set h⟩
  · intro h
    rcases h with ⟨hn, hlt, hdvd⟩
    rw [keyframeMask, List.getElem?_take_of_lt hn, List.getElem?_append_left (by simpa using hlt)]
    simp [List.getElem?_range hlt, Nat.mod_eq_zero_of_dvd hdvd]

/-- the set positions, in order -/
theorem keptIndices_keyframeMask (t n : ℕ) {sf : ℕ} (hsf : 0 < sf) :
    keptIndices (keyframeMask t sf n) = (List.range (keyframesInWindow t sf n)).map (· * sf) := by
  have hsorted : (keptIndices (keyframeMask t sf n)).Pairwise (· < ·) := List.pairwise_lt_range.filter _
  have hmultiples : ((List.range (keyframesInWindow t sf n)).map (· * sf)).Pairwise (· < ·) :=
    List.pairwise_lt_range.map _ fun a b hab => Nat.mul_lt_mul_of_pos_right hab hsf
  refine hsorted.eq_of_mem_iff hmultiples fun i => ?_
  rw [mem_keptIndices, keyframeMask_getElem?, List.mem_map]
  refine ⟨?_, ?_⟩
  · intro h
    rcases h with ⟨hn, hlt, q, rfl⟩
    rw [Nat.mul_comm sf q] at hn hlt
    exact ⟨q, List.mem_range.2 ((lt_keyframesInWindow hsf).2 ⟨Nat.lt_of_mul_lt_mul_right hlt, hn⟩), Nat.mul_comm q sf⟩
  · intro h
    rcases h with ⟨q, hq, rfl⟩
    obtain ⟨hqt, hqn⟩ := (lt_keyframesInWindow hsf).1 (List.mem_range.1 hq)
    exact ⟨hqn, Nat.mul_lt_mul_of_pos_right hqt hsf, Nat.dvd_mul_left sf q⟩

/-! ## The clip -/

/-- `argmin` at a position with the least element, none of which stands before it -/
theorem argmin_eq {l : List ℕ} {i : ℕ} (hi : i < l.length) (hle : ∀ v ∈ l, l[i] ≤ v)
    (hlt : ∀ j (hj : j < i), l[i] < l[j]) : argmin l = i := by
  rw [argmin, List.findIdx_eq hi]
  refine ⟨by simpa using hle, ?_⟩
  intro j hj
  have hnot : ¬ ∀ u ∈ l, l[j] ≤ u := fun h => absurd (h l[i] (List.getElem_mem hi)) (Nat.not_le.2 (hlt j hj))
  simpa using hnot

/-- the keyframe shown at a position: the first of those whose own position is nearest -/
theorem nearestKept_getD {msk : List Bool} {p : ℕ} (hp : p < msk.length) :
    (nearestKept msk).getD p 0 = argmin ((keptIndices msk).map fun k : ℕ => ((p : ℤ) - (k : ℤ)).natAbs) := by
  have hcast : (List.range msk.length >>= fun a : ℕ => pure (a : ℤ)) =
      (List.range msk.length).map fun a : ℕ => (a : ℤ) := by
    rw [bind_pure_comp]
    rfl
  rw [nearestKept, hcast, List.map_map, List.getD_eq_getElem?_getD, List.getElem?_map, List.getElem?_range hp]
  rfl

/-- the frame shown at the position of a keyframe in the window is that keyframe -/
theorem nearestKept_keyframe {t sf n i : ℕ} (hsf : 0 < sf) (hi : i < keyframesInWindow t sf n) :
    (nearestKept (keyframeMask t sf n)).getD (i * sf) 0 = i := by
  have hn := ((lt_keyframesInWindow hsf).1 hi).2
  rw [nearestKept_getD (by simpa using hn), keptIndices_keyframeMask t n hsf]
  refine argmin_eq (by simpa using hi) ?_ ?_
  · intro v hv
    simp
  · intro j hj
    have hne : j * sf < i * sf := Nat.mul_lt_mul_of_pos_right hj hsf
    simp only [List.map_map, List.getElem_map, List.getElem_range, Function.comp_apply]
    omega

/-- `_prepare_lq_and_msk` shows keyframe i: its position i * sf is in the clip, the frame there is the keyframe, and the
mask is set there -/
def Uses (self : SkipConcatSession V) (input : Tensor UInt8) (i : ℕ) : Prop :=
  ∃ lq msk h w, self.prepareLqAndMsk input self.trainNumFrames = .ok (lq, msk, h, w) ∧
    i * self.temporalSf < lq.dim0 ∧
    (∀ idx, lq.get (i * self.temporalSf :: idx) = (normalise input).get (i :: idx)) ∧
    ∀ y x, msk.get [i * self.temporalSf, y, x] = true

/-- a staged keyframe is used exactly when its position is in the window -/
theorem uses_iff {s : SkipConcatSession V} (hs : Configured s) {x : Tensor UInt8} {t c h w i : ℕ}
    (hx : x.shape = [t, c, h, w]) (hi : i < t) : Uses s x i ↔ i * s.temporalSf < 60 := by
  refine ⟨?_, ?_⟩
  · intro hu
    rcases hu with ⟨lq, msk, h', w', hprep, hlt, -⟩
    obtain ⟨lq', msk', hprep', hshape, -⟩ := prepareLqAndMsk_shape hs hx (by omega) (by decide : 0 < 60)
    rw [hs.train, hprep'] at hprep
    obtain ⟨rfl, -⟩ := Prod.mk.inj (Except.ok.inj hprep)
    rwa [Tensor.dim0, hshape] at hlt
  · intro hlt
    have hin : i < keyframesInWindow t s.temporalSf 60 := (lt_keyframesInWindow hs.sf_pos).2 ⟨hi, hlt⟩
    set k := keyframeMask t s.temporalSf 60 with hk
    have hne : keptIndices k ≠ [] := List.ne_nil_of_mem (zero_mem_keptIndices (by omega) hs.sf_pos (by decide))
    have hle : (keptIndices k).length ≤ t := keptIndices_keyframeMask_le 60 hs.sf_pos
    have hup := upsampleTemporal_nearest (0 : UInt8) x hne (by simpa [Tensor.dim0, hx] using hle)
    refine ⟨normalise (x.indexSelect (nearestKept k)), repeatMask k h w, h, w, ?_, ?_, ?_, ?_⟩
    · simp only [SkipConcatSession.prepareLqAndMsk, hx, hs.train, ← hk, hup]
      rfl
    · simpa [normalise, nearestKept, hk] using hlt
    · intro idx
      simp only [normalise, Tensor.map, Tensor.indexSelect, hk, nearestKept_keyframe hs.sf_pos hin]
    · intro y z
      have hset : k[i * s.temporalSf]? = some true :=
        keyframeMask_getElem?.2 ⟨hlt, Nat.mul_lt_mul_of_pos_right hi hs.sf_pos, Nat.dvd_mul_left _ _⟩
      simp [repeatMask, List.getD_eq_getElem?_getD, hset]

/-! ## Answered chunks -/

section Answered

variable [Add V] [SMul ℚ V] {M : Precond V} {vc vh vw : ℕ}

/-- if the call is answered, each of its keyframes is used -/
def KeyframesUsed (M : Precond V) (s : VfiSession V) (a : ChunkArgs V) : Prop :=
  ∀ n, ((VfiSession.interpolateChunk M a).run s).1 = .ok n →
    ∀ x, s.input a = .ok x → ∀ i < a.numInputFrames.toNat, Uses s.runner x i

/-- **Used or refused, exactly.** In every state a session reaches, a chunk call that returns has used all its keyframes
exactly when the position of the last one is in the window, or the call raises for another reason. -/
theorem keyframes_used_iff {g : Geometry} (hM : M.Ok g.frameShape vc vh vw) (id : String) (params : VfiParameters)
    (ops : List (SessionOp V)) (a : ChunkArgs V) :
    KeyframesUsed M (reached M id params g ops) a ↔
      (a.numInputFrames.toNat - 1) * temporalSf params < 60 ∨ ¬ Answers vc vh vw (reached M id params g ops) a := by
  have hb := reached_built hM.toEncodes id params ops
  generalize reached M id params g ops = s at hb
  have hconf := hb.wf.runner.config
  rw [← hb.sf]
  rcases answer_cases (hb.ok hM) hb.wf a with ⟨hans, hok⟩ | ⟨hno, e, he⟩
  · obtain ⟨x, hx, hshape, -⟩ := input_ok hans.1
    have hpos : 0 < a.numInputFrames.toNat := by have := hans.1.pos; omega
    refine ⟨?_, ?_⟩
    · intro h
      exact Or.inl ((uses_iff hconf hshape (by omega)).1 (h _ hok x hx _ (by omega)))
    · intro h n _ x' hx' i hi
      obtain rfl : x = x' := Except.ok.inj (hx.symm.trans hx')
      have hlast := h.resolve_right (not_not.2 hans)
      refine (uses_iff hconf hshape hi).2 (lt_of_le_of_lt ?_ hlast)
      exact Nat.mul_le_mul_right _ (by omega)
  · refine iff_of_true ?_ (Or.inr hno)
    intro n hn
    rw [he] at hn
    cases hn

end Answered

/-- fifteen keyframes at scale factor 4 fill the window -/
theorem fifteen_keyframes_used :
    KeyframesUsed mockModel (reached mockModel "0123456789ab" ⟨4, 10⟩ rgb32 []) ⟨0, 15, false, quiet⟩ :=
  (keyframes_used_iff (g := rgb32) (mockModel_ok _) "0123456789ab" ⟨4, 10⟩ [] ⟨0, 15, false, quiet⟩).2 (Or.inl (by decide))

/-- **An ignored keyframe.** Sixteen keyframes at scale factor 4 are answered, and the last one is not used. -/
theorem sixteenth_keyframe_ignored :
    ¬ KeyframesUsed mockModel (reached mockModel "0123456789ab" ⟨4, 10⟩ rgb32 []) ⟨0, 16, false, quiet⟩ := by
  intro h
  have hb := reached_built (g := rgb32) (mockModel_ok _).toEncodes "0123456789ab" ⟨4, 10⟩ []
  have hr : Reads mockSession ⟨0, 16, false, quiet⟩ := (mock_reachesWriter (T := 16) hb (by decide) (by decide)).reads
  obtain ⟨x, hx, hshape, -⟩ := input_ok hr
  have hu := h 40 (mock_answer (T := 16) (by decide) (by decide)) x hx 15 (by decide)
  exact absurd ((uses_iff hb.wf.runner.config hshape (by decide)).1 hu) (by decide)

end Viduce.Session
