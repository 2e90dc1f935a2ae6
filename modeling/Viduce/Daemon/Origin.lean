/-
The chunk protocol with every tile replaced by its origin: the number of the call that emitted it and its place among
that call's tiles. This is what is left of a session when the tensors are forgotten, and it decides who conditions whom.

- `refines`: the tensor session simulates this machine call by call (`abs` forgets the tensors).
- `skip_origin`: a cached x0_skip comes from one SKIP call, and since that call only chunk_index-0 calls have assigned
  latents. x0_prev_ is the same tile.
- `prev_origin`: a cached x0_prev comes from a FIRST or a SKIP call.
-/
import Mathlib.Tactic
import Viduce.Core.Run
import Viduce.Daemon.Chunks
import Viduce.Daemon.ChunkStep

namespace Viduce.Origin

open Viduce.Chunks Viduce.Run

/-- call number, tile number within the call -/
abbrev TileId := ℕ × ℕ

/-- a call: its two arguments, and whether its denoising meets no fault -/
structure OCall where
  chunkIndex : ℕ
  isLast : Bool
  denoises : Bool
deriving DecidableEq, Repr

structure OSt where
  lat : Latents TileId
  calls : ℕ
deriving DecidableEq, Repr

def init : OSt := ⟨Latents.none, 0⟩

def role (s : OSt) (c : OCall) : Role := dispatch s.lat c.chunkIndex c.isLast

/-- the call assigns its latents -/
def commits (s : OSt) (c : OCall) : Bool := c.denoises && admitted (role s c) s.lat

/-- the tiles of one call -/
def origins (call n : ℕ) : List TileId := (List.range n).map fun i => (call, i)

def step (s : OSt) (c : OCall) : OSt where
  lat := if commits s c then commit 1 (role s c) s.lat (origins s.calls (tiles (role s c) s.lat)) else s.lat
  calls := s.calls + 1

/-! ## The tensor session simulates it -/

section Refinement

open Viduce.SessionRunner

variable {V : Type}

def tileId (t : Tile V) : TileId := (t.call, t.idx)

/-- forgets the tensors of a session -/
def abs (s : SkipConcatSession V) : OSt := ⟨s.toLatents.map tileId, s.calls⟩

instance (env : Env V) (n : ℕ) : Decidable (env.Denoises n) :=
  decidable_of_iff (env.fault .lqEncode = none ∧ env.fault .mskEncode = none ∧
      ∀ i < n, env.fault (.predictV i) = none)
    ⟨fun ⟨a, b, c⟩ => ⟨a, b, c⟩, fun ⟨a, b, c⟩ => ⟨a, b, c⟩⟩

def absCall (numSteps : ℕ) (c : ChunkCall V) : OCall := ⟨c.chunkIndex, c.isLast, decide (c.env.Denoises numSteps)⟩

theorem map_tag (call : ℕ) (xt : List V) : (tag call xt).map tileId = origins call xt.length := by
  apply List.ext_getElem
  · simp [tag, origins]
  · intro i h1 h2
    simp [tag, origins, tileId]

theorem role_abs (s : SkipConcatSession V) (c : ChunkCall V) (n : ℕ) :
    role (abs s) (absCall n c) = SessionRunner.role s c :=
  dispatch_map _ _ _ _

theorem commits_abs (s : SkipConcatSession V) (c : ChunkCall V) :
    commits (abs s) (absCall s.numSteps c) = true ↔ Commits s c := by
  rw [commits, role_abs, Bool.and_eq_true]
  simp only [Commits, absCall, decide_eq_true_eq, abs, admitted_map]

variable [Add V] [SMul ℚ V]

/-- one call of the session is one step of the machine -/
theorem step_abs {M : Precond V} {s : SkipConcatSession V} (hs : Wf s) {c : ChunkCall V} {h w : ℕ}
    (hM : M.Encodes c.input.shape.tail) (hx : Staged c.input h w) :
    abs (SessionRunner.step M s c) = step (abs s) (absCall s.numSteps c) ∧
      (SessionRunner.step M s c).numSteps = s.numSteps := by
  obtain ⟨t, ch, hshape, ht⟩ := hx
  rw [hshape] at hM
  rcases step_cases hM hs hshape ht with ⟨hc, g, -, hg, -, hrun⟩ | ⟨hc, e, hrun⟩
  · rw [SessionRunner.step, hrun]
    refine ⟨?_, rfl⟩
    have htag : (tag s.calls g.xt).map tileId = origins s.calls (tiles (SessionRunner.role s c) s.toLatents) := by
      rw [map_tag, hg.xt]
    simp only [step, (commits_abs s c).2 hc, if_true, role_abs]
    simp only [abs, tiles_map, ← commit_map, htag]
  · rw [SessionRunner.step, hrun]
    refine ⟨?_, rfl⟩
    have hc' : commits (abs s) (absCall s.numSteps c) = false := by
      rw [← Bool.not_eq_true, commits_abs]; exact hc
    simp only [step, hc', Bool.false_eq_true, if_false]
    rfl

/-- **Refinement.** Along any sequence of calls on staged clips the session stays well formed and in step with the
machine. -/
theorem refines {M : Precond V} {s : SkipConcatSession V} (hs : Wf s) (calls : ℕ → ChunkCall V) {h w n : ℕ}
    (hM : ∀ k < n, M.Encodes (calls k).input.shape.tail) (hx : ∀ k < n, Staged (calls k).input h w) :
    let s' := stateAt (SessionRunner.step M) s calls n
    Wf s' ∧ s'.numSteps = s.numSteps ∧
      abs s' = stateAt step (abs s) (fun k => absCall s.numSteps (calls k)) n := by
  refine stateAt_sim (R := fun a b => Wf a ∧ a.numSteps = s.numSteps ∧ abs a = b) ⟨hs, rfl, rfl⟩ ?_
  intro k hk a b h
  rcases h with ⟨ha, hn, rfl⟩
  obtain ⟨h1, h2⟩ := step_abs ha (hM k hk) (hx k hk)
  exact ⟨step_wf ha (hM k hk) (hx k hk), h2.trans hn, by rw [h1, hn]⟩

end Refinement

/-! ## Where the cached tiles come from -/

section Provenance

variable (c : ℕ → OCall)

/-- the state in which call number i is made -/
def st (i : ℕ) : OSt := stateAt step init c i

def roleAt (i : ℕ) : Role := role (st c i) (c i)

def commitsAt (i : ℕ) : Bool := commits (st c i) (c i)

theorem st_zero : st c 0 = init := rfl

theorem st_succ (i : ℕ) : st c (i + 1) = step (st c i) (c i) := rfl

theorem st_calls (i : ℕ) : (st c i).calls = i := by
  induction i with
  | zero => rfl
  | succ i ih => rw [st_succ, step, ih]

/-- the latents after call i -/
theorem st_lat_succ (i : ℕ) :
    (st c (i + 1)).lat = if commitsAt c i then
      commit 1 (roleAt c i) (st c i).lat (origins i (tiles (roleAt c i) (st c i).lat)) else (st c i).lat := by
  rw [st_succ, step, st_calls]
  rfl

variable {c}

/-- a call that does not assign its latents leaves them alone -/
theorem st_lat_succ_of_not {i : ℕ} (h : commitsAt c i = false) : (st c (i + 1)).lat = (st c i).lat := by
  rw [st_lat_succ, h]; simp

theorem st_lat_succ_of {i : ℕ} (h : commitsAt c i = true) :
    (st c (i + 1)).lat = commit 1 (roleAt c i) (st c i).lat (origins i (tiles (roleAt c i) (st c i).lat)) := by
  rw [st_lat_succ, h]; simp

/-- x0_skip is pending from SKIP call j: no call since has assigned it -/
structure Pending (c : ℕ → OCall) (i j : ℕ) : Prop where
  lt : j < i
  skip : roleAt c j = .skip
  commits : commitsAt c j = true
  since : ∀ m, j < m → m < i → commitsAt c m = true → roleAt c m = .first ∨ roleAt c m = .standalone

theorem Pending.succ {i j : ℕ} (h : Pending c i j)
    (hi : commitsAt c i = true → roleAt c i = .first ∨ roleAt c i = .standalone) : Pending c (i + 1) j := by
  refine { h with lt := by have := h.lt; omega, since := fun m hjm hmi hm => ?_ }
  rcases Nat.lt_succ_iff_lt_or_eq.1 hmi with hlt | rfl
  · exact h.since m hjm hlt hm
  · exact hi hm

/-- **Who cached x0_skip.** A cached x0_skip is the tile of one SKIP call, pending ever since, and x0_prev_ is the same
tile. -/
theorem skip_origin (i : ℕ) : (st c i).lat.x0Prev_ = (st c i).lat.x0Skip ∧
    ∀ l, (st c i).lat.x0Skip = some l → ∃ j, l = [(j, 0)] ∧ Pending c i j := by
  induction i with
  | zero => exact ⟨rfl, fun l hl => by simp [st_zero, init, Latents.none] at hl⟩
  | succ i ih =>
    obtain ⟨heq, hsk⟩ := ih
    cases hc : commitsAt c i with
    | false =>
      rw [st_lat_succ_of_not hc]
      refine ⟨heq, ?_⟩
      intro l hl
      obtain ⟨j, hj, hp⟩ := hsk l hl
      exact ⟨j, hj, hp.succ fun h => by simp [hc] at h⟩
    | true =>
      rw [st_lat_succ_of hc]
      cases hr : roleAt c i with
      | standalone =>
        refine ⟨heq, ?_⟩
        intro l hl
        obtain ⟨j, hj, hp⟩ := hsk l hl
        exact ⟨j, hj, hp.succ fun _ => Or.inr hr⟩
      | first =>
        refine ⟨heq, ?_⟩
        intro l hl
        obtain ⟨j, hj, hp⟩ := hsk l hl
        exact ⟨j, hj, hp.succ fun _ => Or.inl hr⟩
      | skip =>
        refine ⟨rfl, fun l hl => ⟨i, ?_, by omega, hr, hc, fun m h1 h2 => by omega⟩⟩
        simpa [commit, firstTiles, origins, tiles] using hl.symm
      | concat => exact ⟨rfl, fun l hl => by simp [commit] at hl⟩
      | last => exact ⟨rfl, fun l hl => by simp [commit, Latents.none] at hl⟩

/-- **Who cached x0_prev.** A cached x0_prev is a tile of an earlier FIRST or SKIP call that assigned its latents. -/
theorem prev_origin (i : ℕ) (l : List TileId) (hl : (st c i).lat.x0Prev = some l) :
    ∃ o t, l = [(o, t)] ∧ o < i ∧ commitsAt c o = true ∧ (roleAt c o = .first ∨ roleAt c o = .skip) := by
  induction i generalizing l with
  | zero => simp [st_zero, init, Latents.none] at hl
  | succ i ih =>
    have weaken : ∀ l, (st c i).lat.x0Prev = some l → ∃ o t, l = [(o, t)] ∧ o < i + 1 ∧ commitsAt c o = true ∧
        (roleAt c o = .first ∨ roleAt c o = .skip) := by
      intro l hl
      obtain ⟨o, t, h1, h2, h3⟩ := ih l hl
      exact ⟨o, t, h1, by omega, h3⟩
    cases hc : commitsAt c i with
    | false => rw [st_lat_succ_of_not hc] at hl; exact weaken l hl
    | true =>
      rw [st_lat_succ_of hc] at hl
      cases hr : roleAt c i with
      | standalone => rw [hr] at hl; exact weaken l hl
      | first =>
        rw [hr] at hl
        exact ⟨i, 1, by simpa [commit, lastTiles, origins, tiles, List.range_succ] using hl.symm, by omega, hc,
          Or.inl hr⟩
      | skip => rw [hr] at hl; exact weaken l hl
      | concat =>
        -- x0_prev advances to the pending SKIP's tile
        rw [hr] at hl
        obtain ⟨heq, hsk⟩ := skip_origin (c := c) i
        obtain ⟨j, hj, hp⟩ := hsk l (heq ▸ hl)
        exact ⟨j, 0, hj, by have := hp.lt; omega, hp.commits, Or.inr hp.skip⟩
      | last => rw [hr] at hl; simp [commit, Latents.none] at hl

end Provenance

end Viduce.Origin
