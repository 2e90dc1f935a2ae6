/-
Which latents CONCAT conditions on. Nothing compares a chunk_index with where the cached tensors come from, so the
answer depends on the whole history of calls.

- `concat_origin`: whatever the calls, the x0_skip a CONCAT conditions on was cached by the latest SKIP that assigned its
  latents, and no CONCAT or LAST has assigned latents since. That SKIP may have any index. If the calls are in order
  (`InOrder`: an index follows the index before it, a chunk_index-0 call comes only with no SKIP pending), CONCAT k
  conditions on SKIP k - 1, and on nothing older than the latest chunk_index-0 call.
- `gap_stale`, `restart_keeps_skip`: after a gap, and after a chunk_index-0 call in the middle of a sequence, the pending
  SKIP is kept and the next chunk is infilled against it.
-/
import Mathlib.Tactic
import Viduce.Daemon.Origin
import Viduce.Daemon.MockModel
import Viduce.Daemon.Schedule

namespace Viduce.Stale

open Viduce.Chunks Viduce.Run

/-! ## On origins -/

section Origins

open Viduce.Origin

variable (c : ℕ → OCall)

/-- call i is a CONCAT that passes its check -/
def ExecutesConcat (i : ℕ) : Prop := roleAt c i = .concat ∧ admitted .concat (st c i).lat = true

/-- up to call i, a chunk_index-0 call comes only with no SKIP pending -/
def Restarts (i : ℕ) : Prop := ∀ m ≤ i, (c m).chunkIndex = 0 → (st c m).lat.x0Skip = none

/-- up to call i, a call of another index carries the index after that of the latest call that assigned latents, which
was not the last of its video; the calls in between failed and were no restarts -/
def Follows (i : ℕ) : Prop :=
  ∀ m ≤ i, (c m).chunkIndex ≠ 0 → ∃ p < m, commitsAt c p = true ∧ (c p).isLast = false ∧
    (c p).chunkIndex + 1 = (c m).chunkIndex ∧ ∀ q, p < q → q < m → commitsAt c q = false ∧ (c q).chunkIndex ≠ 0

variable {c}

theorem index_of_first {i : ℕ} (h : roleAt c i = .first ∨ roleAt c i = .standalone) : (c i).chunkIndex = 0 := by
  by_contra h0
  unfold roleAt role dispatch at h
  split_ifs at h <;> simp_all

theorem index_of_role {i : ℕ} (h : roleAt c i = .skip ∨ roleAt c i = .concat ∨ roleAt c i = .last) :
    (c i).chunkIndex ≠ 0 := by
  intro h0
  unfold roleAt role dispatch at h
  split_ifs at h <;> simp_all

theorem role_of_index {i : ℕ} (h : (c i).chunkIndex = 0) (hl : (c i).isLast = false) : roleAt c i = .first := by
  simp [roleAt, role, dispatch, h, hl]

/-- a CONCAT that commits has passed its check -/
theorem executes_of_commits {i : ℕ} (hr : roleAt c i = .concat) (hc : commitsAt c i = true) : ExecutesConcat c i := by
  refine ⟨hr, ?_⟩
  have h := (Bool.and_eq_true _ _ ▸ hc : _ ∧ _).2
  have hr' : role (st c i) (c i) = .concat := hr
  rwa [hr'] at h

/-- what an executing CONCAT conditions on -/
theorem executes_latents {i : ℕ} (h : ExecutesConcat c i) :
    ∃ j o t, (st c i).lat.x0Skip = some [(j, 0)] ∧ Pending c i j ∧ (st c i).lat.x0Prev = some [(o, t)] := by
  obtain ⟨hprev, hskip⟩ : (st c i).lat.x0Prev.isSome = true ∧ (st c i).lat.x0Skip.isSome = true := by
    simpa [admitted] using h.2
  obtain ⟨l, hl⟩ := Option.isSome_iff_exists.1 hskip
  obtain ⟨l', hl'⟩ := Option.isSome_iff_exists.1 hprev
  obtain ⟨j, rfl, hp⟩ := (skip_origin i).2 l hl
  obtain ⟨o, t, rfl, -⟩ := prev_origin i l' hl'
  exact ⟨j, o, t, hl, hp, hl'⟩

/-- x0_skip stays cached for as long as it is pending -/
theorem pending_skip {i j m : ℕ} (hp : Pending c i j) (hjm : j + 1 ≤ m) (hmi : m ≤ i) :
    (st c m).lat.x0Skip ≠ none := by
  induction m, hjm using Nat.le_induction with
  | base =>
    rw [st_lat_succ_of hp.commits, hp.skip]
    simp [commit]
  | succ m hm ih =>
    have hprev := ih (by omega)
    cases hc : commitsAt c m with
    | false => rwa [st_lat_succ_of_not hc]
    | true =>
      rw [st_lat_succ_of hc]
      rcases hp.since m (by omega) (by omega) hc with hr | hr
      · rwa [hr]
      · rwa [hr]

/-- no chunk_index-0 call comes while a SKIP is pending -/
theorem pending_no_restart {i j : ℕ} (hp : Pending c i j) (hres : Restarts c i) {z : ℕ} (hjz : j < z) (hzi : z < i) :
    (c z).chunkIndex ≠ 0 := fun h0 => pending_skip hp hjz hzi.le (hres z hzi.le h0)

theorem Restarts.mono {i m : ℕ} (h : Restarts c i) (hm : m ≤ i) : Restarts c m := fun q hq => h q (hq.trans hm)

/-- from a FIRST that assigned x0_prev on, as long as no chunk_index-0 call comes, x0_prev is made by that FIRST or a
later call -/
theorem prev_since {z i : ℕ} (hz : roleAt c z = .first) (hzc : commitsAt c z = true)
    (hno : ∀ z', z < z' → z' < i → (c z').chunkIndex ≠ 0) (hres : Restarts c i) {m : ℕ} (hm : z + 1 ≤ m) (hmi : m ≤ i)
    {o t : ℕ} (hl : (st c m).lat.x0Prev = some [(o, t)]) : z ≤ o := by
  induction m, hm using Nat.le_induction generalizing o t with
  | base =>
    rw [st_lat_succ_of hzc, hz] at hl
    simp [commit, lastTiles, origins, tiles, List.range_succ] at hl
    omega
  | succ m hzm ih =>
    have hkeep : (st c m).lat.x0Prev = some [(o, t)] → z ≤ o := fun h => ih (by omega) h
    cases hc : commitsAt c m with
    | false => rw [st_lat_succ_of_not hc] at hl; exact hkeep hl
    | true =>
      rw [st_lat_succ_of hc] at hl
      have hidx : (c m).chunkIndex ≠ 0 := hno m (by omega) (by omega)
      cases hr : roleAt c m with
      | standalone => exact absurd (index_of_first (Or.inr hr)) hidx
      | first => exact absurd (index_of_first (Or.inl hr)) hidx
      | skip => rw [hr] at hl; exact hkeep hl
      | concat =>
        -- x0_prev advances to the pending SKIP, which is later than z: the FIRST at z met no pending SKIP
        rw [hr] at hl
        obtain ⟨j, -, -, hsk, hp, -⟩ := executes_latents (executes_of_commits hr hc)
        have hnew : (st c m).lat.x0Skip = some [(o, t)] := (skip_origin m).1 ▸ hl
        rw [hsk] at hnew
        simp only [Option.some.injEq, List.cons.injEq, Prod.mk.injEq, and_true] at hnew
        have hne : j ≠ z := fun h => by rw [← h, hp.skip] at hz; cases hz
        by_contra hlt
        exact pending_no_restart hp (hres.mono (by omega)) (by omega) (by omega) (index_of_first (Or.inl hz))
      | last => rw [hr] at hl; simp [commit, Latents.none] at hl

/-- a call in order goes back, index by index, to a FIRST that assigned x0_prev -/
theorem first_of_follows {i : ℕ} (hf : Follows c i) (h0 : (c i).chunkIndex ≠ 0) :
    ∃ z < i, roleAt c z = .first ∧ commitsAt c z = true ∧ ∀ z', z < z' → z' < i → (c z').chunkIndex ≠ 0 := by
  induction i using Nat.strong_induction_on with
  | _ i ih =>
    obtain ⟨p, hpi, hpc, hpl, -, hbetween⟩ := hf i le_rfl h0
    by_cases hp0 : (c p).chunkIndex = 0
    · exact ⟨p, hpi, role_of_index hp0 hpl, hpc, fun z' h1 h2 => (hbetween z' h1 h2).2⟩
    · obtain ⟨z, hzp, hz, hzc, hno⟩ := ih p hpi (fun m hm => hf m (hm.trans hpi.le)) hp0
      refine ⟨z, by omega, hz, hzc, ?_⟩
      intro z' h1 h2
      rcases Nat.lt_trichotomy z' p with h | rfl | h
      · exact hno z' h1 h
      · exact hp0
      · exact (hbetween z' h h2).2

/-- **In order, CONCATs are fresh**, on origins -/
theorem fresh_of_inOrder {i : ℕ} (hex : ExecutesConcat c i) (hres : Restarts c i) (hf : Follows c i) {j o t : ℕ}
    (hp : Pending c i j) (hpr : (st c i).lat.x0Prev = some [(o, t)]) :
    (c j).chunkIndex + 1 = (c i).chunkIndex ∧ ∀ z < i, (c z).chunkIndex = 0 → z ≤ j ∧ z ≤ o := by
  have hi0 : (c i).chunkIndex ≠ 0 := index_of_role (Or.inr (Or.inl hex.1))
  have hsince := fun z hjz hzi => pending_no_restart hp hres (z := z) hjz hzi
  refine ⟨?_, fun z hz h0 => ⟨?_, ?_⟩⟩
  · -- the call before i in the sequence is the pending SKIP: nothing else has assigned latents since
    obtain ⟨p, hpi, hpc, -, hidx, hbetween⟩ := hf i le_rfl hi0
    rcases Nat.lt_trichotomy p j with h | rfl | h
    · exact absurd hp.commits (by rw [(hbetween j h hp.lt).1]; decide)
    · exact hidx
    · exact absurd (index_of_first (hp.since p h hpi hpc)) (hsince p h hpi)
  · by_contra hlt
    exact hsince z (by omega) hz h0
  · obtain ⟨z₀, hz₀, hfirst, hfc, hno⟩ := first_of_follows hf hi0
    have hzz : z ≤ z₀ := by
      by_contra hlt
      exact hno z (by omega) hz h0
    exact hzz.trans (prev_since hfirst hfc hno hres hz₀ le_rfl hpr)

end Origins

/-! ## On the session -/

section Session

open Viduce.SessionRunner
open Viduce.Origin hiding role step init

variable {V : Type}

theorem of_map_singleton {x : Option (List (Tile V))} {a : TileId} (h : x.map (List.map tileId) = some [a]) :
    ∃ t, x = some [t] ∧ tileId t = a := by
  obtain ⟨l, rfl, hl⟩ := Option.map_eq_some_iff.1 h
  obtain ⟨t, rfl, rfl⟩ := List.map_eq_singleton_iff.1 hl
  exact ⟨t, rfl, rfl⟩

variable [Add V] [SMul ℚ V]

/-- the calls are in order up to call i: a chunk_index-0 call comes only with no SKIP pending; any other carries the
index after that of the latest call that assigned latents, which was not the last of its video, and the calls in between
failed and were no restarts -/
structure InOrder (M : Precond V) (s : SkipConcatSession V) (calls : ℕ → ChunkCall V) (i : ℕ) : Prop where
  restarts : ∀ m ≤ i, (calls m).chunkIndex = 0 → (stateAt (step M) s calls m).x0Skip = none
  follows : ∀ m ≤ i, (calls m).chunkIndex ≠ 0 → ∃ p < m, Commits (stateAt (step M) s calls p) (calls p) ∧
    (calls p).isLast = false ∧ (calls p).chunkIndex + 1 = (calls m).chunkIndex ∧
    ∀ q, p < q → q < m → ¬ Commits (stateAt (step M) s calls q) (calls q) ∧ (calls q).chunkIndex ≠ 0

/-- what call i conditions on is not stale: x0_skip was cached by the SKIP of the index before, and both latents were
made since the latest chunk_index-0 call -/
def Fresh (M : Precond V) (s : SkipConcatSession V) (calls : ℕ → ChunkCall V) (i : ℕ) : Prop :=
  ∃ skip prev : Tile V, (stateAt (step M) s calls i).x0Skip = some [skip] ∧
    (stateAt (step M) s calls i).x0Prev = some [prev] ∧
    role (stateAt (step M) s calls skip.call) (calls skip.call) = .skip ∧
    (calls skip.call).chunkIndex + 1 = (calls i).chunkIndex ∧
    ∀ z < i, (calls z).chunkIndex = 0 → z ≤ skip.call ∧ z ≤ prev.call

variable {M : Precond V} {vc vh vw : ℕ} {calls : ℕ → ChunkCall V} {h w i : ℕ}

/-- **What CONCAT conditions on.** Whatever the calls, an executing CONCAT's x0_skip was cached by the latest SKIP that
assigned its latents, and no CONCAT or LAST has assigned latents since. If the calls are in order it is fresh. -/
theorem concat_origin (hM : ∀ k < i, M.Encodes (calls k).input.shape.tail) (params : VfiParameters)
    (hx : ∀ k < i, Staged (calls k).input h w)
    (hrole : role (stateAt (step M) (SkipConcatSession.init V params) calls i) (calls i) = .concat)
    (hadm : admitted .concat (stateAt (step M) (SkipConcatSession.init V params) calls i).toLatents = true) :
    (∃ skip : Tile V, (stateAt (step M) (SkipConcatSession.init V params) calls i).x0Skip = some [skip] ∧
      skip.call < i ∧
      role (stateAt (step M) (SkipConcatSession.init V params) calls skip.call) (calls skip.call) = .skip ∧
      Commits (stateAt (step M) (SkipConcatSession.init V params) calls skip.call) (calls skip.call) ∧
      ∀ m, skip.call < m → m < i → Commits (stateAt (step M) (SkipConcatSession.init V params) calls m) (calls m) →
        role (stateAt (step M) (SkipConcatSession.init V params) calls m) (calls m) = .first ∨
        role (stateAt (step M) (SkipConcatSession.init V params) calls m) (calls m) = .standalone) ∧
    (InOrder M (SkipConcatSession.init V params) calls i → Fresh M (SkipConcatSession.init V params) calls i) := by
  set s := SkipConcatSession.init V params with hs
  set c : ℕ → OCall := fun k => absCall s.numSteps (calls k) with hc
  have href : ∀ k ≤ i, (stateAt (step M) s calls k).numSteps = s.numSteps ∧
      abs (stateAt (step M) s calls k) = st c k := fun k hk =>
    (refines (wf_init params) calls (fun m hm => hM m (by omega)) fun m hm => hx m (by omega)).2
  have hroleAt : ∀ k ≤ i, roleAt c k = role (stateAt (step M) s calls k) (calls k) := by
    intro k hk
    rw [roleAt, ← (href k hk).2]
    exact role_abs _ _ _
  have hcommitsAt : ∀ k ≤ i, commitsAt c k = true ↔ Commits (stateAt (step M) s calls k) (calls k) := by
    intro k hk
    rw [commitsAt, ← (href k hk).2, ← commits_abs, (href k hk).1]
  have hlat : ∀ k ≤ i, (st c k).lat = (stateAt (step M) s calls k).toLatents.map tileId := by
    intro k hk
    rw [← (href k hk).2]
    rfl
  have hex : ExecutesConcat c i := ⟨(hroleAt i le_rfl).trans hrole, by rw [hlat i le_rfl, admitted_map]; exact hadm⟩
  obtain ⟨j, o, t, hsk, hp, hpr⟩ := executes_latents hex
  rw [hlat i le_rfl] at hsk
  have hpr' := hpr
  rw [hlat i le_rfl] at hpr'
  obtain ⟨skip, hskip, hid⟩ := of_map_singleton hsk
  obtain ⟨prev, hprev, hid'⟩ := of_map_singleton hpr'
  obtain rfl : skip.call = j := congrArg Prod.fst hid
  obtain rfl : prev.call = o := congrArg Prod.fst hid'
  have hskrole := (hroleAt skip.call hp.lt.le).symm.trans hp.skip
  refine ⟨⟨skip, hskip, hp.lt, hskrole, (hcommitsAt _ hp.lt.le).1 hp.commits, ?_⟩, ?_⟩
  · intro m h1 h2 hm
    rw [← hroleAt m h2.le]
    exact hp.since m h1 h2 ((hcommitsAt m h2.le).2 hm)
  · intro hord
    have hres : Restarts c i := by
      intro m hm h0
      rw [hlat m hm]
      simp [Latents.map, hord.restarts m hm h0]
    have hfol : Follows c i := by
      intro m hm h0
      obtain ⟨p, hpm, hpc, hpl, hidx, hbetween⟩ := hord.follows m hm h0
      refine ⟨p, hpm, (hcommitsAt p (by omega)).2 hpc, hpl, hidx, fun q h1 h2 => ⟨?_, (hbetween q h1 h2).2⟩⟩
      rw [← Bool.not_eq_true, hcommitsAt q (by omega)]
      exact (hbetween q h1 h2).1
    obtain ⟨hidx, hsince⟩ := fresh_of_inOrder hex hres hfol hp hpr
    exact ⟨skip, prev, hskip, hprev, hskrole, hidx, hsince⟩

open Viduce.Schedule in
/-- a video is in order -/
theorem video_inOrder {n : ℕ} (hM : ∀ k < n, M.Ok (calls k).input.shape.tail vc vh vw) (params : VfiParameters)
    (hv : Video calls n h w) (hi : i < n) :
    InOrder M (SkipConcatSession.init V params) calls i := by
  refine ⟨?_, ?_⟩
  · intro m hm h0
    rw [hv.index m (by omega)] at h0
    subst h0
    rfl
  · intro m hm h0
    rw [hv.index m (by omega)] at h0
    have hp : m - 1 < n := by omega
    refine ⟨m - 1, by omega, ((inStep hM params hv hp.le).commits hv hp).2, ?_, ?_, fun q h1 h2 => by omega⟩
    · rw [hv.last _ hp, decide_eq_false_iff_not]
      omega
    · rw [hv.index _ hp, hv.index m (by omega)]
      omega

open Viduce.Schedule in
/-- the CONCAT of the test suite's four chunks is fresh -/
theorem concat_origin_mock : Fresh mockModel (SkipConcatSession.init Unit ⟨4, 10⟩) (mockVideo 4) 2 := by
  have hv := mockVideo_video 4
  obtain ⟨hrole, -, hadm⟩ := (inStep (fun _ _ => mockModel_ok _) ⟨4, 10⟩ hv (by decide : 2 ≤ 4)).commits hv (by decide)
  rw [hrole] at hadm
  exact (concat_origin (fun _ _ => (mockModel_ok _).toEncodes) ⟨4, 10⟩ (fun k hk => hv.staged k (by omega)) hrole hadm).2
    (video_inOrder (fun _ _ => mockModel_ok _) ⟨4, 10⟩ hv (by decide))

/-- non-final calls of the given indices on the mock model -/
def mockCalls (idx : ℕ → ℕ) : ℕ → ChunkCall Unit := fun i => ⟨idx i, frame32, false, quiet⟩

/-- the latents of a mock session, by origin -/
theorem mock_latents (idx : ℕ → ℕ) (n : ℕ) :
    (stateAt (step mockModel) (SkipConcatSession.init Unit ⟨4, 10⟩) (mockCalls idx) n).toLatents.map tileId =
      (stateAt Origin.step Origin.init (fun k => ⟨idx k, false, true⟩) n).lat := by
  obtain ⟨-, -, habs⟩ := refines (wf_init ⟨4, 10⟩) (mockCalls idx) (n := n)
    (fun _ _ => (mockModel_ok _).toEncodes) fun _ _ => staged_frame32
  have hcall : (fun k => absCall 10 (mockCalls idx k)) = fun k => ⟨idx k, false, true⟩ := by
    funext k
    simp only [absCall, mockCalls, denoises_quiet, decide_true]
  have h := congrArg Origin.OSt.lat habs
  rw [show (SkipConcatSession.init Unit ⟨4, 10⟩).numSteps = 10 from rfl, hcall] at h
  exact h

/-- a mock call that finds x0_prev and x0_skip cached is a CONCAT, on the x0_skip it finds -/
theorem mock_concat (idx : ℕ → ℕ) (n : ℕ) (h0 : idx n ≠ 0) {a b : TileId} {l : Option (List TileId)}
    (hlat : (stateAt Origin.step Origin.init (fun k => ⟨idx k, false, true⟩) n).lat = ⟨some [a], some [b], l⟩) :
    (role (stateAt (step mockModel) (SkipConcatSession.init Unit ⟨4, 10⟩) (mockCalls idx) n) (mockCalls idx n) = .concat ∧
      admitted .concat
        (stateAt (step mockModel) (SkipConcatSession.init Unit ⟨4, 10⟩) (mockCalls idx) n).toLatents = true) ∧
    ∀ skip, (stateAt (step mockModel) (SkipConcatSession.init Unit ⟨4, 10⟩) (mockCalls idx) n).x0Skip = some [skip] →
      skip.call = b.1 := by
  have h := (mock_latents idx n).trans hlat
  refine ⟨⟨?_, ?_⟩, ?_⟩
  · rw [role, ← dispatch_map tileId, h]
    exact dispatch_concat.2 ⟨h0, rfl, rfl⟩
  · rw [← admitted_map tileId, h]
    rfl
  · intro skip hskip
    have hid := congrArg Latents.x0Skip h
    rw [Latents.map, hskip] at hid
    exact congrArg Prod.fst (List.singleton_inj.1 (Option.some.inj hid))

/-- chunks 0, 1, 3: chunk 2 never comes -/
def gapCalls : ℕ → ChunkCall Unit := mockCalls fun i => if i = 2 then 3 else i

/-- **A gap.** Chunk 3 is a CONCAT on the x0_skip of chunk 1. -/
theorem gap_stale :
    (role (stateAt (step mockModel) (SkipConcatSession.init Unit ⟨4, 10⟩) gapCalls 2) (gapCalls 2) = .concat ∧
      admitted .concat
        (stateAt (step mockModel) (SkipConcatSession.init Unit ⟨4, 10⟩) gapCalls 2).toLatents = true) ∧
    ¬ Fresh mockModel (SkipConcatSession.init Unit ⟨4, 10⟩) gapCalls 2 := by
  obtain ⟨hconcat, hcall⟩ := mock_concat (fun i => if i = 2 then 3 else i) 2 (by decide)
    (by decide : _ = (⟨some [(0, 1)], some [(1, 0)], some [(1, 0)]⟩ : Latents TileId))
  refine ⟨hconcat, ?_⟩
  intro h
  rcases h with ⟨skip, prev, hskip, -, -, hidx, -⟩
  rw [hcall skip hskip] at hidx
  exact absurd hidx (by decide)

/-- **A restart.** A chunk_index-0 call keeps the pending SKIP, and the next chunk that is not the last is infilled against
it. -/
theorem restart_keeps_skip (M : Precond V) (s : SkipConcatSession V) {c : ChunkCall V} (h0 : c.chunkIndex = 0)
    {skip : List (Tile V)} (hskip : s.x0Skip = some skip) {k : ℕ} (hk : k ≠ 0) :
    (step M s c).x0Skip = some skip ∧ dispatch (step M s c).toLatents k false = .concat := by
  have hkept : (step M s c).x0Skip = some skip := by
    rw [step, interpolateChunk_run]
    cases s.denoise M c.env c.input (dispatch s.toLatents c.chunkIndex c.isLast) with
    | error e => exact hskip
    | ok g =>
      -- FIRST or STANDALONE: neither body assigns x0_skip
      simp only [dispatch, if_pos h0]
      cases c.isLast with
      | true => exact hskip
      | false => exact hskip
  refine ⟨hkept, dispatch_concat.2 ⟨hk, rfl, ?_⟩⟩
  rw [hkept]
  rfl

end Session

end Viduce.Stale
