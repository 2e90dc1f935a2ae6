/-
The sampler against the training objective. Training takes a clean latent x0 and a noise x1, mixes them at a time
(`Precond.forward`), and asks for the velocity x1 - x0; the three loops of the session start from noise at time 1 and step
against the predicted velocity down the schedule of `compute_schedule`.

- `computeSchedule_get`: the schedule is an even grid from 1 down to 0, shifted.
- `euler_path`: where the prediction on the generated tiles is the target, each step of a loop goes along the line from the
  noise to the clean latent.
- `sampler_inverts_flow`: the schedule goes from 1 down to 0, and the three loops end on the clean latent.

Exact arithmetic. A tile is an element of any module over the rationals.
-/
import Mathlib.Tactic
import Viduce.Core.Flow
import Viduce.Daemon.ChunkStep

namespace Viduce.Sampler

open Viduce.SessionRunner Viduce.Flow

/-! ## Training -/

section Training

variable {V : Type} [AddCommGroup V] [Module ℚ V]

/-- `xt` of `Precond.forward`, at time w -/
def forwardXt (x0 x1 : V) (w : ℚ) : V := (1 - w) • x0 + w • x1

/-- `target` of `Precond.forward` -/
def forwardTarget (x0 x1 : V) : V := x1 - x0

/-- the mixed tiles at one time -/
def mixed (x0 x1 : List V) (w : ℚ) : List V := List.zipWith (fun a b => forwardXt a b w) x0 x1

/-- the target of each tile -/
def targets (x0 x1 : List V) : List V := List.zipWith forwardTarget x0 x1

theorem mixed_eq_path (x0 x1 : List V) (w : ℚ) : mixed x0 x1 w = path x0 x1 w := by
  simp only [mixed, path, forwardXt, AffineMap.lineMap_apply_module]

omit [Module ℚ V] in
theorem targets_length {x0 x1 : List V} (h : x1.length = x0.length) : (targets x0 x1).length = x0.length := by
  simp [targets, h]

end Training

/-! ## The schedule -/

/-- the schedule is an even grid, shifted -/
theorem computeSchedule_eq (n : ℕ) (tShift : ℚ) :
    computeSchedule n tShift = (List.range (n + 1)).map fun i : ℕ => shift tShift (grid n i) := by
  have hcast : (List.range (n + 1) >>= fun a : ℕ => pure (a : ℚ)) = (List.range (n + 1)).map fun a : ℕ => (a : ℚ) := by
    rw [bind_pure_comp]
    rfl
  rw [computeSchedule, hcast, List.map_map]
  rfl

theorem computeSchedule_length (n : ℕ) (tShift : ℚ) : (computeSchedule n tShift).length = n + 1 := by
  simp [computeSchedule_eq]

theorem computeSchedule_get {n i : ℕ} (tShift : ℚ) (hi : i ≤ n) :
    (computeSchedule n tShift).getD i 0 = shift tShift (grid n i) := by
  simp [computeSchedule_eq, List.getD_eq_getElem?_getD, Nat.lt_succ_of_le hi]

theorem computeSchedule_first {n : ℕ} {tShift : ℚ} (hshift : 0 < tShift) : (computeSchedule n tShift).getD 0 0 = 1 := by
  rw [computeSchedule_get tShift (Nat.zero_le n), grid_zero, shift_one hshift.ne']

theorem computeSchedule_last {n : ℕ} (hn : 0 < n) (tShift : ℚ) : (computeSchedule n tShift).getD n 0 = 0 := by
  rw [computeSchedule_get tShift le_rfl, grid_last hn, shift_zero]

theorem computeSchedule_decreasing {n : ℕ} {tShift : ℚ} (hn : 0 < n) (hshift : 0 < tShift) :
    (computeSchedule n tShift).Pairwise (· > ·) := by
  rw [computeSchedule_eq, List.pairwise_map]
  apply List.pairwise_lt_range.imp_of_mem
  intro i j _ hj hij
  exact shift_grid_anti hshift hn hij (Nat.lt_succ_iff.1 (List.mem_range.1 hj))

/-! ## The loops -/

section Loops

variable {V : Type} [AddCommGroup V] [Module ℚ V]

/-- at every step of a loop over generated tiles between the conditioning tiles `pre` and `post`, `predict_v` returns the
training target on the generated tiles and anything on the others. It is asked only at the windows where the generated tiles
are mixed at time ts[i] and the conditioning tiles are still `pre` and `post`. -/
def PredictsTarget (M : Precond V) (s : SkipConcatSession V) (y m pre post x0 x1 : List V) : Prop :=
  ∀ i < s.numSteps, ∃ vpre vpost, vpre.length = pre.length ∧ vpost.length = post.length ∧
    M.predictV (pre ++ mixed x0 x1 (s.ts.getD i 0) ++ post)
        (List.replicate pre.length s.tCond ++ List.replicate x0.length (s.ts.getD i 0) ++
          List.replicate post.length s.tCond) y m =
      vpre ++ targets x0 x1 ++ vpost

variable {M : Precond V} {s : SkipConcatSession V} {env : Env V} {y m pre post x0 x1 : List V} {keep : List V → List V}

/-- **Along the line.** If the part of the prediction a loop keeps is that of the generated tiles, the loop goes along the
line from x1 to x0: after i steps it is at time ts[i]. -/
theorem euler_path (hcalls : ∀ i < s.numSteps, env.fault (.predictV i) = none) (hlen : x1.length = x0.length)
    (hpredict : PredictsTarget M s y m pre post x0 x1)
    (hkeep : ∀ vpre vpost, vpre.length = pre.length → vpost.length = post.length →
      keep (vpre ++ targets x0 x1 ++ vpost) = targets x0 x1)
    (hfirst : s.ts.getD 0 0 = 1) :
    s.euler M env y m pre post keep x1 = .ok (mixed x0 x1 (s.ts.getD s.numSteps 0)) := by
  have hstep : ∀ i < s.numSteps, ∀ xt, xt = mixed x0 x1 (s.ts.getD i 0) →
      ∃ xt', s.eulerStep M env y m pre post keep xt i = .ok xt' ∧ xt' = mixed x0 x1 (s.ts.getD (i + 1) 0) := by
    intro i hi xt hxt
    obtain ⟨vpre, vpost, hvpre, hvpost, hv⟩ := hpredict i hi
    have hxtlen : xt.length = x0.length := by rw [hxt, mixed_eq_path, path_length hlen]
    refine ⟨axpy (s.ts.getD (i + 1) 0 - s.ts.getD i 0) xt (targets x0 x1), ?_, ?_⟩
    · rw [SkipConcatSession.eulerStep, guard_ok (hcalls i hi), hxtlen, hxt, hv, ok_bind, hkeep vpre vpost hvpre hvpost]
    · rw [hxt, mixed_eq_path, mixed_eq_path]
      exact path_step x0 x1 _ _
  obtain ⟨xt, hxt, hend⟩ := forRange_upto (P := fun i xt => xt = mixed x0 x1 (s.ts.getD i 0)) hstep
    (by rw [hfirst, mixed_eq_path, path_one hlen])
  rw [SkipConcatSession.euler, hxt, hend]

/-- **The sampler inverts the flow.** The schedule has one value more than there are steps, goes down from 1 to 0, and its
denominator is positive; and if the prediction on the generated tiles is the training target at every step, each of the
three loops, started at the noise x1, returns the clean latent x0. -/
theorem sampler_inverts_flow (M : Precond V) {s : SkipConcatSession V} (hsteps : 0 < s.numSteps) (hshift : 0 < s.tShift)
    (hts : s.ts = computeSchedule s.numSteps s.tShift) {env : Env V}
    (hcalls : ∀ i < s.numSteps, env.fault (.predictV i) = none) (y m : List V) {x0 x1 : List V}
    (hlen : x1.length = x0.length) :
    ((computeSchedule s.numSteps s.tShift).length = s.numSteps + 1 ∧
      (computeSchedule s.numSteps s.tShift)[0]? = some 1 ∧
      (computeSchedule s.numSteps s.tShift)[s.numSteps]? = some 0 ∧
      (computeSchedule s.numSteps s.tShift).Pairwise (· > ·) ∧
      ∀ i : ℕ, i ≤ s.numSteps → 0 < 1 + (s.tShift - 1) * (1 - i / s.numSteps)) ∧
    (PredictsTarget M s y m [] [] x0 x1 → s.denoiseLoop M env x1 y m = .ok x0) ∧
    (∀ nT xtPrev xtSkip, xtPrev.length = s.nTCond → s.nTCond + x0.length = nT - s.nTCond →
      PredictsTarget M s y m xtPrev xtSkip x0 x1 → s.concatLoop M env nT xtPrev x1 xtSkip y m = .ok x0) ∧
    ∀ xtPrev, xtPrev.length = s.nTCond → PredictsTarget M s y m xtPrev [] x0 x1 →
      s.lastLoop M env xtPrev x1 y m = .ok x0 := by
  have hfirst : s.ts.getD 0 0 = 1 := by rw [hts, computeSchedule_first hshift]
  have hend : mixed x0 x1 (s.ts.getD s.numSteps 0) = x0 := by
    rw [hts, computeSchedule_last hsteps, mixed_eq_path, path_zero hlen]
  have htargets := targets_length hlen
  refine ⟨⟨computeSchedule_length _ _, ?_, ?_, computeSchedule_decreasing hsteps hshift, ?_⟩, ?_, ?_, ?_⟩
  · simp [computeSchedule_eq, grid_zero, shift_one hshift.ne']
  · simp [computeSchedule_eq, grid_last hsteps]
  · intro i hi
    obtain ⟨h0, h1⟩ := grid_mem (K := ℚ) hsteps hi
    exact shift_pos hshift h0 h1
  · intro hpredict
    rw [SkipConcatSession.denoiseLoop, euler_path hcalls hlen hpredict ?_ hfirst, hend]
    intro vpre vpost hvpre hvpost
    rw [List.length_eq_zero_iff.1 hvpre, List.length_eq_zero_iff.1 hvpost, List.nil_append, List.append_nil]
    rfl
  · intro nT xtPrev xtSkip hprev hgen hpredict
    rw [SkipConcatSession.concatLoop, euler_path hcalls hlen hpredict ?_ hfirst, hend]
    intro vpre vpost hvpre hvpost
    have hcut : nT - s.nTCond = (vpre ++ targets x0 x1).length := by
      rw [List.length_append, hvpre, hprev, htargets, hgen]
    rw [hcut, List.take_left, ← hprev, ← hvpre, List.drop_left]
  · intro xtPrev hprev hpredict
    rw [SkipConcatSession.lastLoop, euler_path hcalls hlen hpredict ?_ hfirst, hend]
    intro vpre vpost hvpre hvpost
    rw [List.length_eq_zero_iff.1 hvpost, List.append_nil, ← hprev, ← hvpre, List.drop_left]

end Loops

/-- a model whose velocity is -4 on every tile, as it is from the clean latent 5 to the noise 1 -/
def steadyModel : Precond ℚ :=
  ⟨fun _ => [], fun _ => [], fun xt _ _ _ => xt.map fun _ => -4, .unsupported "", fun _ => (0, 0)⟩

/-- two steps, shifted by 3 -/
def shiftedSession : SkipConcatSession ℚ :=
  { SkipConcatSession.init ℚ ⟨4, 2⟩ with tShift := 3, ts := computeSchedule 2 3 }

theorem steadyModel_predicts (pre post : List ℚ) : PredictsTarget steadyModel shiftedSession [] [] pre post [5] [1] := by
  intro i _
  refine ⟨pre.map fun _ => -4, post.map fun _ => -4, by simp, by simp, ?_⟩
  simp only [steadyModel, mixed, targets, forwardTarget, List.zipWith_cons_cons, List.zipWith_nil_left, List.map_append,
    List.map_cons, List.map_nil]
  norm_num

/-- one generated tile, between conditioning tiles 7 and 9 -/
theorem steady_inverted :
    shiftedSession.denoiseLoop steadyModel ⟨fun _ => none, fun _ _ => 0⟩ [1] [] [] = .ok [5] ∧
      shiftedSession.concatLoop steadyModel ⟨fun _ => none, fun _ _ => 0⟩ 3 [7] [1] [9] [] [] = .ok [5] ∧
      shiftedSession.lastLoop steadyModel ⟨fun _ => none, fun _ _ => 0⟩ [7] [1] [] [] = .ok [5] := by
  obtain ⟨-, hdenoise, hconcat, hlast⟩ := @sampler_inverts_flow ℚ _ _ steadyModel shiftedSession (by decide)
    (by norm_num [shiftedSession]) rfl ⟨fun _ => none, fun _ _ => 0⟩ (fun _ _ => rfl) [] [] [5] [1] rfl
  refine ⟨hdenoise (steadyModel_predicts [] []), ?_, ?_⟩
  · exact hconcat 3 [7] [9] rfl rfl (steadyModel_predicts [7] [9])
  · exact hlast [7] rfl (steadyModel_predicts [7] [])

end Viduce.Sampler
