/-
Whether a failed chunk can be sent again. A body assigns its latents before it decodes, and Python does not roll back, so
a call that fails in the VAE or the writer has already moved the session on.

- `commit_changes`: every role but STANDALONE changes the latents when it commits (LAST if any is cached).
- `retryable_iff`: in every state a session reaches, a call that raises leaves the latents and its own role as they were
  exactly when it does not fail late after such a commit.
- `skip_retry_becomes_concat`: a SKIP whose VAE decode runs out of memory leaves its latents behind, and the same chunk
  sent again is a CONCAT.
-/
import Mathlib.Tactic
import Viduce.Core.Run
import Viduce.Daemon.MockModel
import Viduce.Daemon.Session

namespace Viduce.Session

open Viduce.Chunks Viduce.Run Viduce.SessionRunner Viduce.Shm

variable {V : Type}

/-! ## Committing changes the latents -/

/-- the role leaves other latents than it met -/
def Changes {τ : Type} (r : Role) (l : Latents τ) : Prop :=
  match r with
  | .standalone => False
  | .last => l ≠ Latents.none
  | _ => True

/-- a commit that gets that far changes the latents exactly in these roles: what FIRST and SKIP cache is made by the
call itself, and no tile of it was cached before -/
theorem commit_changes {s : SkipConcatSession V} (hs : SessionRunner.Wf s) {k : ℕ} {b : Bool} {xt : List V}
    (hxt : 0 < xt.length) :
    commit 1 (dispatch s.toLatents k b) s.toLatents (tag s.calls xt) ≠ s.toLatents ↔
      Changes (dispatch s.toLatents k b) s.toLatents := by
  cases hr : dispatch s.toLatents k b with
  | standalone => simp [commit, Changes]
  | first =>
    refine iff_of_true (fun h => ?_) trivial
    have hne : tag s.calls xt ≠ [] := by
      rw [← List.length_pos_iff, tag_length]
      exact hxt
    have hprev : s.x0Prev = some [(tag s.calls xt).getLast hne] := by
      rw [← lastTiles_one hne]
      exact (congrArg Latents.x0Prev h).symm
    have hlt := hs.born.prev _ hprev _ (List.mem_singleton_self _)
    rw [tag_call (List.getLast_mem hne)] at hlt
    exact lt_irrefl _ hlt
  | skip =>
    refine iff_of_true (fun h => ?_) trivial
    have hskip := congrArg Latents.x0Skip h
    rw [(dispatch_skip.1 hr).2.2] at hskip
    simp [commit] at hskip
  | concat =>
    refine iff_of_true (fun h => ?_) trivial
    have hskip := congrArg Latents.x0Skip h
    have hsome := (dispatch_concat.1 hr).2.2
    rw [← hskip] at hsome
    simp [commit] at hsome
  | last => simp [commit, Changes, eq_comm]

/-! ## Retrying -/

section Retry

variable [Add V] [SMul ℚ V]

/-- if the call raises, the latents are as they were, and the same chunk again has the same role -/
def Retryable (M : Precond V) (s : VfiSession V) (a : ChunkArgs V) : Prop :=
  ∀ e s', (VfiSession.interpolateChunk M a).run s = (.error e, s') →
    s'.runner.toLatents = s.runner.toLatents ∧ roleIn s' a = roleIn s a

/-- the call gets past its denoising, its role changes the latents, and then it fails -/
def FailsAfterCommit (vc vh vw : ℕ) (s : VfiSession V) (a : ChunkArgs V) : Prop :=
  Reads s a ∧ CommitsIn s a ∧ Changes (roleIn s a) s.runner.toLatents ∧ FailsLate vc vh vw s a

/-- what happens to a session: a chunk call, or the host stages bytes -/
inductive SessionOp (V : Type) where
  | chunk (a : ChunkArgs V)
  | stage (bytes : List UInt8)

def sessionStep (M : Precond V) (s : VfiSession V) : SessionOp V → VfiSession V
  | .chunk a => ((VfiSession.interpolateChunk M a).run s).2
  | .stage bytes => s.stage bytes

variable {M : Precond V} {vc vh vw : ℕ}

theorem chunk_wf {s : VfiSession V} (hM : M.Encodes s.shmReader.geometry.frameShape) (hs : Wf s) (a : ChunkArgs V) :
    Wf ((VfiSession.interpolateChunk M a).run s).2 := by
  obtain ⟨r, b, hframe⟩ := chunk_frame M a s
  refine ⟨?_, by rw [hframe]; exact hs.geometry⟩
  rw [interpolateChunk_run]
  by_cases hr : Reads s a
  · obtain ⟨x, hx, hshape, hpos⟩ := input_ok hr
    have hM' : M.Encodes x.shape.tail := by rw [hshape]; exact hM
    have hwf := step_wf hs.runner (c := ⟨a.chunkIndex, x, a.isLast, a.env⟩) hM' ⟨_, _, hshape, hpos⟩
    rw [hx]
    simp only
    split
    · exact hwf
    · split
      · exact hwf
      · exact hwf
  · obtain ⟨e, he⟩ := input_error hr
    rw [he]
    exact hs.runner

theorem sessionStep_geometry (M : Precond V) (s : VfiSession V) (o : SessionOp V) :
    (sessionStep M s o).shmReader.geometry = s.shmReader.geometry := by
  cases o with
  | chunk a =>
    obtain ⟨r, b, hframe⟩ := chunk_frame M a s
    rw [sessionStep, hframe]
  | stage bytes => rfl

theorem sessionStep_wf {s : VfiSession V} (hM : M.Encodes s.shmReader.geometry.frameShape) (o : SessionOp V) (hs : Wf s) :
    Wf (sessionStep M s o) := by
  cases o with
  | chunk a => exact chunk_wf hM hs a
  | stage bytes => exact stage_wf hs bytes

/-- every state of a session is well formed, and reads frames of the geometry it was built for -/
theorem run_wf {g : Geometry} (hM : M.Encodes g.frameShape) (id : String) (params : VfiParameters)
    (ops : List (SessionOp V)) :
    Wf (run (sessionStep M) (VfiSession.fresh V id params g) ops) ∧
      (run (sessionStep M) (VfiSession.fresh V id params g) ops).shmReader.geometry = g := by
  refine run_inv (P := fun s : VfiSession V => Wf s ∧ s.shmReader.geometry = g) (fun s o hs => ?_)
    ⟨fresh_wf id params g, rfl⟩ ops
  exact ⟨sessionStep_wf (by rw [hs.2]; exact hM) o hs.1, (sessionStep_geometry M s o).trans hs.2⟩

/-- **Retrying.** In every state a session reaches, a chunk call that raises leaves the latents and its role alone
exactly when it does not fail after committing. -/
theorem retryable_iff {g : Geometry} (hM : M.Ok g.frameShape vc vh vw) (id : String) (params : VfiParameters)
    (ops : List (SessionOp V)) (a : ChunkArgs V) :
    Retryable M (run (sessionStep M) (VfiSession.fresh V id params g) ops) a ↔
      ¬ FailsAfterCommit vc vh vw (run (sessionStep M) (VfiSession.fresh V id params g) ops) a := by
  obtain ⟨hs, hgeom⟩ := run_wf hM.toEncodes id params ops
  generalize run (sessionStep M) (VfiSession.fresh V id params g) ops = s at hs hgeom
  rw [← hgeom] at hM
  rcases chunk_cases hM hs a with ⟨hearly, e, he, hlat⟩ | ⟨hreads, hcommits, xt, hxt, hlat, hlate⟩
  · refine iff_of_true (fun e' s' h => ?_) fun h => hearly ⟨h.1, h.2.1⟩
    rw [h] at hlat
    exact ⟨hlat, by rw [roleIn, hlat, roleIn]⟩
  · have hpos : 0 < xt.length := by rw [hxt]; exact tiles_pos _ _
    have hchanges := commit_changes hs.runner (k := a.chunkIndex) (b := a.isLast) hpos
    refine ⟨?_, ?_⟩
    · rintro h ⟨-, -, hch, hfail⟩
      rcases hlate with ⟨-, e, he⟩ | ⟨hno, -⟩
      · have hkept := (h e _ (Prod.ext he rfl)).1
        rw [hlat] at hkept
        exact hchanges.2 hch hkept
      · exact hno hfail
    · intro h e s' hrun
      rcases hlate with ⟨hfail, -⟩ | ⟨-, hok⟩
      · have hsame : commit 1 (roleIn s a) s.runner.toLatents (tag s.runner.calls xt) = s.runner.toLatents := by
          by_contra hne
          exact h ⟨hreads, hcommits, hchanges.1 hne, hfail⟩
        rw [hrun] at hlat
        have hkept := hlat.trans hsame
        exact ⟨hkept, by rw [roleIn, hkept, roleIn]⟩
      · rw [hrun] at hok
        cases hok

/-- **A failed SKIP becomes a CONCAT.** A SKIP that fails after committing leaves its latents behind, and the same chunk
sent again finds them. -/
theorem late_skip {s : VfiSession V} (hM : M.Ok s.shmReader.geometry.frameShape vc vh vw) (hs : Wf s) {a : ChunkArgs V}
    (hrole : roleIn s a = .skip) (hreads : Reads s a) (hdenoises : a.env.Denoises s.runner.numSteps)
    (hlate : FailsLate vc vh vw s a) :
    ¬ Retryable M s a ∧ roleIn ((VfiSession.interpolateChunk M a).run s).2 a = .concat := by
  rcases chunk_cases hM hs a with ⟨hearly, -⟩ | ⟨-, -, xt, -, hlat, ⟨-, e, he⟩ | ⟨hno, -⟩⟩
  · exact absurd ⟨hreads, hdenoises, by rw [hrole]; rfl⟩ hearly
  · have hskip := dispatch_skip.1 hrole
    have hconcat : roleIn ((VfiSession.interpolateChunk M a).run s).2 a = .concat := by
      rw [roleIn, hlat, hrole]
      exact dispatch_concat.2 ⟨hskip.1, hskip.2.1, rfl⟩
    refine ⟨fun hretry => ?_, hconcat⟩
    have hsame := (hretry e _ (Prod.ext he rfl)).2
    rw [hconcat, hrole] at hsame
    cases hsame
  · exact absurd hlate hno

end Retry

/-! ## On the mock model -/

/-- 32 by 32 RGB frames -/
def rgb32 : Geometry := ⟨32, 32, 3, by decide, by decide, rgb_ok⟩

def mockSession : VfiSession Unit := VfiSession.fresh Unit "0123456789ab" ⟨4, 10⟩ rgb32

/-- a chunk of one keyframe can be read from a session like the mock session -/
theorem reads_mock {s : VfiSession Unit} (hreader : s.shmReader = mockSession.shmReader) {k : ℕ} {b : Bool}
    {env : Env Unit} (h : env.fault .readTensor = none) : Reads s ⟨k, 1, b, env⟩ := by
  refine ⟨h, Int.one_pos, ?_⟩
  rw [hreader]
  simp only [mockSession, VfiSession.fresh, List.length_replicate]
  exact Nat.mul_le_mul_right _ (by decide)

/-- an encoder that runs out of memory leaves the chunk to be sent again -/
theorem encoder_oom_retryable : Retryable mockModel mockSession ⟨0, 1, false, oomAt .lqEncode⟩ :=
  (retryable_iff (g := rgb32) (mockModel_ok _) "0123456789ab" ⟨4, 10⟩ [] ⟨0, 1, false, oomAt .lqEncode⟩).2
    fun h => absurd h.2.1.1.lq (by decide)

/-- the mock session after chunk 0 -/
def afterFirst : VfiSession Unit := run (sessionStep mockModel) mockSession [.chunk ⟨0, 1, false, quiet⟩]

theorem afterFirst_eq :
    afterFirst = ((VfiSession.interpolateChunk mockModel ⟨0, 1, false, quiet⟩).run mockSession).2 := by
  rw [afterFirst, run_cons, run_nil, sessionStep]

theorem afterFirst_reader : afterFirst.shmReader = mockSession.shmReader := by
  obtain ⟨r, b, h⟩ := chunk_frame mockModel ⟨0, 1, false, quiet⟩ mockSession
  rw [afterFirst_eq, h]

theorem afterFirst_skip : afterFirst.runner.x0Skip = none := by
  have hfresh : Wf mockSession := fresh_wf _ _ _
  rcases chunk_cases (mockModel_ok _) hfresh ⟨0, 1, false, quiet⟩ with ⟨hearly, -⟩ | ⟨-, -, xt, -, hlat, -⟩
  · exact absurd ⟨reads_mock rfl rfl, denoises_quiet _, rfl⟩ hearly
  · rw [← afterFirst_eq] at hlat
    rw [hlat]
    rfl

/-- **A failed SKIP.** After chunk 0, the VAE runs out of memory on chunk 1, a SKIP; the same chunk again is a CONCAT. -/
theorem skip_retry_becomes_concat :
    roleIn afterFirst ⟨1, 1, false, oomAt .vaeDecode⟩ = .skip ∧
      ¬ Retryable mockModel afterFirst ⟨1, 1, false, oomAt .vaeDecode⟩ ∧
      roleIn ((VfiSession.interpolateChunk mockModel ⟨1, 1, false, oomAt .vaeDecode⟩).run afterFirst).2
        ⟨1, 1, false, oomAt .vaeDecode⟩ = .concat := by
  have hs : Wf afterFirst := (run_wf (mockModel_ok _).toEncodes _ _ _).1
  have hrole : roleIn afterFirst ⟨1, 1, false, oomAt .vaeDecode⟩ = .skip :=
    dispatch_skip.2 ⟨one_ne_zero, rfl, afterFirst_skip⟩
  exact ⟨hrole, late_skip (mockModel_ok _) hs hrole (reads_mock afterFirst_reader rfl) ⟨rfl, rfl, fun _ _ => rfl⟩
    (Or.inl (by decide))⟩

end Viduce.Session
