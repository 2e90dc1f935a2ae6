/-
Which latents are cached, over any sequence of chunk calls and cleanups. A call may fail at any of its model or VAE calls;
what it has assigned by then stays.

- `latents_cases`: a call commits its role or leaves the latents alone.
- `prev_cached_iff`, `any_cached_iff`: x0_prev is cached exactly when a FIRST has cached it and nothing has cleared the
  latents since, and one of x0_prev and x0_skip exactly when a FIRST or a SKIP has.
- `concat_check`, `raises_notCached`: when CONCAT's check fails, and that nothing else in the session raises its error.
- `latent_presence`: the four together, in every state of every run.
-/
import Mathlib.Tactic
import Viduce.Daemon.ChunkStep

namespace Viduce.Presence

open Viduce.Chunks Viduce.Run Viduce.SessionRunner Viduce.Temporal

variable {V : Type}

/-! ## Operations -/

/-- `cleanup`; emptying the CUDA cache touches no attribute -/
def cleanup (s : SkipConcatSession V) : SkipConcatSession V := s.cleanupLatents

inductive Op (V : Type) where
  | interpolateChunk (c : ChunkCall V)
  | cleanup

/-- the error of CONCAT's check -/
def notCached : PyErr := ⟨.runtimeError, "CHUNK_CONCAT called before x0_prev and x0_skip were cached"⟩

/-- a model or VAE call raises it -/
def Raises (env : Env V) (e : PyErr) : Prop := ∃ st, env.fault st = some e

/-! ## What can raise -/

section Errors

variable {M : Precond V} {s : SkipConcatSession V}

theorem guard_raises {α : Type} {env : Env V} {st : Stage} {a : α} {e : PyErr} (h : env.guard st a = .error e) :
    Raises env e := by
  unfold Env.guard at h
  split at h
  · rename_i e' he
    exact ⟨st, he.trans (congrArg some (Except.error.inj h))⟩
  · cases h

/-- the clip raises no RuntimeError -/
theorem prepareLqAndMsk_raises {x : Tensor UInt8} {n : ℕ} {e : PyErr} (h : s.prepareLqAndMsk x n = .error e) :
    e.kind ≠ .runtimeError := by
  unfold SkipConcatSession.prepareLqAndMsk at h
  split at h
  · rcases bind_eq_error.1 h with hup | ⟨lq, -, hok⟩
    · simp only [upsampleTemporal] at hup
      split_ifs at hup <;> cases hup <;> intro hkind <;> cases hkind
    · cases hok
  · cases h
    intro hkind
    cases hkind

theorem prelude_raises {env : Env V} {x : Tensor UInt8} {e : PyErr} (h : s.prelude M env x = .error e) :
    Raises env e ∨ e.kind ≠ .runtimeError := by
  rcases bind_eq_error.1 h with hclip | ⟨p, -, h⟩
  · exact Or.inr (prepareLqAndMsk_raises hclip)
  · rcases bind_eq_error.1 h with hguard | ⟨y, -, h⟩
    · exact Or.inl (guard_raises hguard)
    · rcases bind_eq_error.1 h with hguard | ⟨m, -, h⟩
      · exact Or.inl (guard_raises hguard)
      · cases h

/-- a role that begins with the prelude and then runs a loop -/
theorem loop_raises {env : Env V} {x : Tensor UInt8} {e : PyErr} {loop : Prelude V → Except PyErr (List V)}
    {g : Prelude V → List V → Denoised V} (hloop : ∀ p, loop p = .error e → Raises env e)
    (h : (do let p ← s.prelude M env x; let xt ← loop p; .ok (g p xt)) = .error e) :
    Raises env e ∨ e.kind ≠ .runtimeError := by
  rcases bind_eq_error.1 h with hprelude | ⟨p, -, h⟩
  · exact prelude_raises hprelude
  · rcases bind_eq_error.1 h with heuler | ⟨xt, -, hok⟩
    · exact Or.inl (hloop p heuler)
    · cases hok

/-- the error of a decode: the VAE call's, no RuntimeError, or that of a VAE of another class -/
theorem decode_raises {env : Env V} {g : Denoised V} {e : PyErr} (h : g.decode M env = .error e) :
    (Raises env e ∨ e.kind ≠ .runtimeError) ∨ ∃ name : String, e.msg = "Unsupported VAE type: " ++ name := by
  rcases bind_eq_error.1 h with hdecode | ⟨f, -, hok⟩
  · unfold vaeDecode at hdecode
    split at hdecode
    · exact Or.inl (Or.inl (guard_raises hdecode))
    · simp only at hdecode
      split_ifs at hdecode
      · cases hdecode
        exact Or.inl (Or.inr nofun)
      · exact Or.inl (Or.inl (guard_raises hdecode))
    · rename_i name _
      cases hdecode
      exact Or.inr ⟨name, rfl⟩
  · cases hok

end Errors

/-! ## Runs of operations -/

section Runs

variable [Add V] [SMul ℚ V] (M : Precond V)

def stepOp (s : SkipConcatSession V) : Op V → SkipConcatSession V
  | .interpolateChunk c => step M s c
  | .cleanup => cleanup s

/-- the call gets as far as the assignment of its latents -/
def Assigns (s : SkipConcatSession V) (c : ChunkCall V) : Prop := ∃ g, s.denoise M c.env c.input (role s c) = .ok g

/-- a call of this role that caches its latents, or clears them -/
def Caches (r : Role) (s : SkipConcatSession V) (o : Op V) : Prop :=
  ∃ c, o = .interpolateChunk c ∧ role s c = r ∧ Assigns M s c

/-- a LAST that assigns, or a cleanup -/
def Clears (s : SkipConcatSession V) (o : Op V) : Prop := o = .cleanup ∨ Caches M .last s o

def after (params : VfiParameters) (ops : List (Op V)) : SkipConcatSession V :=
  run (stepOp M) (SkipConcatSession.init V params) ops

/-- a call of this role has cached its latents since the latents were last cleared -/
def CachedSince (r : Role) (params : VfiParameters) (ops : List (Op V)) : Prop :=
  Since (stepOp M) (Caches M r) (Clears M) (SkipConcatSession.init V params) ops

/-! ## What a call does to the latents -/

variable {M} {s : SkipConcatSession V}

/-- **One call.** It commits its role, CONCAT's check having passed, or leaves the latents alone. -/
theorem latents_cases (M : Precond V) (s : SkipConcatSession V) (c : ChunkCall V) :
    (Assigns M s c ∧ admitted (role s c) s.toLatents = true ∧
      ∃ xt, (step M s c).toLatents = commit s.nTCond (role s c) s.toLatents xt) ∨
    (¬ Assigns M s c ∧ (step M s c).toLatents = s.toLatents) := by
  have hrun := interpolateChunk_run M c s
  rw [← role] at hrun
  cases hg : s.denoise M c.env c.input (role s c) with
  | ok g =>
    rw [hg] at hrun
    refine Or.inl ⟨⟨g, hg⟩, (denoise_error hg).2, tag s.calls g.xt, ?_⟩
    rw [step, hrun]
  | error e =>
    rw [hg] at hrun
    refine Or.inr ⟨?_, by rw [step, hrun]⟩
    intro h
    obtain ⟨g, h⟩ := h
    cases hg.symm.trans h

theorem paired_stepOp (s : SkipConcatSession V) (o : Op V) (h : Paired s.toLatents) :
    Paired (stepOp M s o).toLatents := by
  cases o with
  | cleanup => exact paired_none
  | interpolateChunk c =>
    rcases latents_cases M s c with ⟨-, -, xt, hc⟩ | ⟨-, hc⟩
    · rw [stepOp, hc]
      exact commit_paired _ _ _ xt h
    · rwa [stepOp, hc]

@[simp] theorem caches_call {r : Role} {c : ChunkCall V} :
    Caches M r s (.interpolateChunk c) ↔ role s c = r ∧ Assigns M s c := by
  simp [Caches]

@[simp] theorem clears_call {c : ChunkCall V} : Clears M s (.interpolateChunk c) ↔ role s c = .last ∧ Assigns M s c := by
  simp [Clears]

@[simp] theorem not_caches_cleanup {r : Role} : ¬ Caches M r s .cleanup := by simp [Caches]

@[simp] theorem clears_cleanup : Clears M s .cleanup := Or.inl rfl

/-- **CONCAT replaces x0_prev by a cached value.** -/
theorem concat_advances (h : Paired s.toLatents) {c : ChunkCall V} (hrole : role s c = .concat) (hassigns : Assigns M s c) :
    s.x0Prev.isSome = true ∧ s.x0Prev_.isSome = true ∧ (step M s c).x0Prev = s.x0Prev_ := by
  rcases latents_cases M s c with ⟨-, hadm, xt, hc⟩ | ⟨hno, -⟩
  · rw [hrole] at hadm hc
    obtain ⟨hprev, hskip⟩ : s.x0Prev.isSome = true ∧ s.x0Skip.isSome = true := by simpa [admitted] using hadm
    exact ⟨hprev, h.symm.trans hskip, by rw [hc]; rfl⟩
  · exact absurd hassigns hno

/-- x0_prev: a FIRST caches it, a LAST or a cleanup clears it, and nothing else takes it away -/
theorem prev_stepOp (s : SkipConcatSession V) (o : Op V) (h : Paired s.toLatents) :
    (stepOp M s o).x0Prev.isSome = true ↔ Caches M .first s o ∨ (s.x0Prev.isSome = true ∧ ¬ Clears M s o) := by
  cases o with
  | cleanup => simp [stepOp, cleanup, SkipConcatSession.cleanupLatents, Latents.none]
  | interpolateChunk c =>
    rw [caches_call, clears_call, stepOp]
    rcases latents_cases M s c with ⟨hassigns, -, xt, hc⟩ | ⟨hno, hc⟩
    · cases hrole : role s c with
      | standalone => simp [hc, hrole, commit]
      | first => simp [hc, hrole, hassigns, commit]
      | skip => simp [hc, hrole, commit]
      | concat =>
        obtain ⟨hbefore, hcached, hprev⟩ := concat_advances h hrole hassigns
        simp [hbefore, hcached, hprev]
      | last => simp [hc, hrole, hassigns, commit, Latents.none]
    · simp [hc, hno]

/-- x0_prev or x0_skip: a FIRST or a SKIP caches one, a LAST or a cleanup clears both, and a CONCAT leaves x0_prev -/
theorem any_stepOp (s : SkipConcatSession V) (o : Op V) (h : Paired s.toLatents) :
    ((stepOp M s o).x0Prev.isSome = true ∨ (stepOp M s o).x0Skip.isSome = true) ↔
      (Caches M .skip s o ∨ Caches M .first s o) ∨
        ((s.x0Prev.isSome = true ∨ s.x0Skip.isSome = true) ∧ ¬ Clears M s o) := by
  cases o with
  | cleanup => simp [stepOp, cleanup, SkipConcatSession.cleanupLatents, Latents.none]
  | interpolateChunk c =>
    rw [caches_call, caches_call, clears_call, stepOp]
    rcases latents_cases M s c with ⟨hassigns, -, xt, hc⟩ | ⟨hno, hc⟩
    · cases hrole : role s c with
      | standalone => simp [hc, hrole, commit]
      | first => simp [hc, hrole, hassigns, commit]
      | skip => simp [hc, hrole, hassigns, commit]
      | concat =>
        obtain ⟨hbefore, hcached, hprev⟩ := concat_advances h hrole hassigns
        simp [hbefore, hcached, hprev]
      | last => simp [hc, hrole, hassigns, commit, Latents.none]
    · simp [hc, hno]

/-! ## What is cached after a run -/

theorem after_paired (M : Precond V) (params : VfiParameters) (ops : List (Op V)) :
    Paired (after M params ops).toLatents :=
  run_inv (P := fun s : SkipConcatSession V => Paired s.toLatents) paired_stepOp paired_none ops

/-- **x0_prev is cached** exactly when a FIRST has cached it since the latents were last cleared. -/
theorem prev_cached_iff (M : Precond V) (params : VfiParameters) (ops : List (Op V)) :
    (after M params ops).x0Prev.isSome = true ↔ CachedSince M .first params ops :=
  iff_since (P := fun s : SkipConcatSession V => s.x0Prev.isSome = true) paired_stepOp prev_stepOp paired_none
    (by simp [SkipConcatSession.init, Latents.none]) ops

theorem any_cached_iff (M : Precond V) (params : VfiParameters) (ops : List (Op V)) :
    ((after M params ops).x0Prev.isSome = true ∨ (after M params ops).x0Skip.isSome = true) ↔
      CachedSince M .skip params ops ∨ CachedSince M .first params ops :=
  (iff_since (P := fun s : SkipConcatSession V => s.x0Prev.isSome = true ∨ s.x0Skip.isSome = true) paired_stepOp any_stepOp
    paired_none (by simp [SkipConcatSession.init, Latents.none]) ops).trans since_or

/-! ## CONCAT's error -/

/-- where CONCAT's check fails, the call raises and leaves the latents alone -/
theorem concat_check (M : Precond V) {c : ChunkCall V} (hrole : role s c = .concat) (hprev : s.x0Prev = none) :
    ((interpolateChunk M c).run s).1 = .error notCached ∧ (step M s c).toLatents = s.toLatents := by
  have hdenoise : s.denoise M c.env c.input (role s c) = .error notCached := by
    rw [hrole, SkipConcatSession.denoise, SkipConcatSession.concatLatents, hprev]
    rfl
  have hrun := interpolateChunk_run M c s
  rw [← role, hdenoise] at hrun
  exact ⟨by rw [hrun], by rw [step, hrun]⟩

theorem euler_raises {env : Env V} {y m pre post xt : List V} {keep : List V → List V} {e : PyErr}
    (h : s.euler M env y m pre post keep xt = .error e) : Raises env e := by
  obtain ⟨i, -, xt', hi⟩ := forRange_error h
  rcases bind_eq_error.1 hi with hguard | ⟨vt, -, hok⟩
  · exact guard_raises hguard
  · cases hok

/-- the error of a denoising part: a model call's, no RuntimeError, or that of CONCAT's check -/
theorem denoise_raises {env : Env V} {x : Tensor UInt8} {r : Role} {e : PyErr} (h : s.denoise M env x r = .error e) :
    (Raises env e ∨ e.kind ≠ .runtimeError) ∨ (r = .concat ∧ admitted r s.toLatents = false) := by
  cases r with
  | standalone => exact Or.inl (loop_raises (fun p => euler_raises) h)
  | first => exact Or.inl (loop_raises (fun p => euler_raises) h)
  | skip => exact Or.inl (loop_raises (fun p => euler_raises) h)
  | concat =>
    simp only [SkipConcatSession.denoise, SkipConcatSession.concatLatents] at h
    split at h
    · exact Or.inl (loop_raises (fun p => euler_raises) h)
    · rename_i hnone
      refine Or.inr ⟨rfl, ?_⟩
      cases hprev : s.x0Prev with
      | none => simp [admitted, hprev]
      | some a =>
        cases hskip : s.x0Skip with
        | none => simp [admitted, hskip]
        | some b => exact absurd hskip (hnone a b hprev)
  | last =>
    simp only [SkipConcatSession.denoise, SkipConcatSession.lastLatents] at h
    split at h
    · exact Or.inl (loop_raises (fun p => euler_raises) h)
    · exact Or.inl (loop_raises (fun p => euler_raises) h)

/-- **Nothing else raises CONCAT's error**, a model or VAE call with the same class and text apart. -/
theorem raises_notCached {c : ChunkCall V} (h : ((interpolateChunk M c).run s).1 = .error notCached) :
    (role s c = .concat ∧ admitted .concat s.toLatents = false) ∨ Raises c.env notCached := by
  have hrun := interpolateChunk_run M c s
  rw [← role] at hrun
  cases hg : s.denoise M c.env c.input (role s c) with
  | error e =>
    rw [hg] at hrun
    rw [hrun] at h
    obtain rfl := Except.error.inj h
    rcases denoise_raises hg with (hraises | hkind) | ⟨hrole, hadm⟩
    · exact Or.inr hraises
    · exact absurd rfl hkind
    · rw [hrole] at hadm
      exact Or.inl ⟨hrole, hadm⟩
  | ok g =>
    rw [hg] at hrun
    rw [hrun] at h
    replace h : Except.map _ (g.decode M c.env) = .error notCached := h
    cases hd : g.decode M c.env with
    | ok f =>
      rw [hd] at h
      cases h
    | error e =>
      rw [hd] at h
      obtain rfl := Except.error.inj h
      rcases decode_raises hd with (hraises | hkind) | ⟨name, hmsg⟩
      · exact Or.inr hraises
      · exact absurd rfl hkind
      · have hfirst := congrArg (fun text : String => text.toList.head?) hmsg
        simp [notCached] at hfirst

/-- **Which latents are cached.** After any sequence of chunk calls and cleanups: x0_skip is cached exactly when x0_prev_
is; x0_prev is exactly when a FIRST has cached it since the latents were last cleared, a CONCAT replacing it by a cached
value; and CONCAT's error is raised when a chunk that is neither the first nor the last comes after a SKIP has cached its
latents and no FIRST has, since they were last cleared, and then changes no latent, and otherwise only by a model or VAE
call with the same error. -/
theorem latent_presence (M : Precond V) (params : VfiParameters) (ops : List (Op V)) :
    ((after M params ops).x0Skip.isSome = true ↔ (after M params ops).x0Prev_.isSome = true) ∧
    ((after M params ops).x0Prev.isSome = true ↔ CachedSince M .first params ops) ∧
    (∀ c, role (after M params ops) c = .concat → Assigns M (after M params ops) c →
      (after M params ops).x0Prev.isSome = true ∧ (after M params ops).x0Prev_.isSome = true ∧
        (step M (after M params ops) c).x0Prev = (after M params ops).x0Prev_) ∧
    ∀ c : ChunkCall V,
      (c.chunkIndex ≠ 0 ∧ c.isLast = false ∧ CachedSince M .skip params ops ∧ ¬ CachedSince M .first params ops →
        ((interpolateChunk M c).run (after M params ops)).1 = .error notCached ∧
          (step M (after M params ops) c).toLatents = (after M params ops).toLatents) ∧
      (((interpolateChunk M c).run (after M params ops)).1 = .error notCached →
        (c.chunkIndex ≠ 0 ∧ c.isLast = false ∧ CachedSince M .skip params ops ∧ ¬ CachedSince M .first params ops) ∨
          Raises c.env notCached) := by
  have hpaired := after_paired M params ops
  have hprev := prev_cached_iff M params ops
  have hany := any_cached_iff M params ops
  generalize after M params ops = s at hpaired hprev hany ⊢
  refine ⟨Bool.eq_iff_iff.1 hpaired, hprev, fun c => concat_advances hpaired, ?_⟩
  intro c
  constructor
  · intro h
    obtain ⟨hindex, hlast, hskip, hfirst⟩ := h
    have hnone : ¬ s.x0Prev.isSome = true := fun h => hfirst (hprev.1 h)
    have hcached : s.x0Skip.isSome = true := (hany.2 (Or.inl hskip)).resolve_left hnone
    exact concat_check M (dispatch_concat.2 ⟨hindex, hlast, hcached⟩) (by simpa using hnone)
  · intro h
    rcases raises_notCached h with ⟨hrole, hadm⟩ | hraises
    · obtain ⟨hindex, hlast, hcached⟩ := dispatch_concat.1 hrole
      have hnone : ¬ s.x0Prev.isSome = true := by
        intro hsome
        simp [admitted, hsome, hcached] at hadm
      have hfirst : ¬ CachedSince M .first params ops := fun h => hnone (hprev.2 h)
      exact Or.inl ⟨hindex, hlast, (hany.1 (Or.inr hcached)).resolve_right hfirst, hfirst⟩
    · exact Or.inr hraises

end Runs

end Viduce.Presence
