/-
A whole video: n chunk calls with chunk_index 0 .. n-1, is_last on the last one only, nothing raising. The role of a call
is decided by whether x0_skip happens to be cached, so the roles and the latents of such a run are worked out together,
for every n.

- `latAt_eq`: the latents before each call of the protocol, in closed form (`expected`).
- `sequential_call`: the tensor session follows the protocol call by call, and no call raises.
- `sequential_run`: the roles, what each CONCAT conditions on, the latents after the last call, and the 20 (n + 2) frames.
-/
import Mathlib.Tactic
import Viduce.Core.Run
import Viduce.Daemon.ChunkStep
import Viduce.Daemon.MockModel

namespace Viduce.Schedule

open Viduce.Chunks Viduce.Run Viduce.SessionRunner

/-! ## The protocol on one video -/

section Protocol

variable {τ : Type} (E : ℕ → List τ) (n : ℕ)

/-- the latents before call i when call j emits the tiles `E j` -/
def latAt : ℕ → Latents τ
  | 0 => Latents.none
  | i + 1 => commit 1 (dispatch (latAt i) i (decide (i + 1 = n))) (latAt i) (E i)

/-- the role of call i -/
def roleOf (i : ℕ) : Role :=
  if i = 0 then if n = 1 then .standalone else .first
  else if i + 1 = n then .last
  else if i % 2 = 1 then .skip else .concat

/-- the call whose last tile is x0_prev before call i -/
def prevCall (i : ℕ) : ℕ := if i ≤ 2 then 0 else if i % 2 = 1 then i - 2 else i - 3

/-- the latents before call i, as long as LAST has not run -/
def expected (i : ℕ) : Latents τ :=
  if i = 0 then Latents.none
  else
    { x0Prev := some (lastTiles 1 (E (prevCall i)))
      x0Skip := if i % 2 = 0 then some (firstTiles 1 (E (i - 1))) else none
      x0Prev_ := if i % 2 = 0 then some (lastTiles 1 (E (i - 1))) else none }

variable {E n}

/-- the dispatch picks `roleOf` on the expected latents -/
theorem dispatch_expected (i : ℕ) : dispatch (expected E i) i (decide (i + 1 = n)) = roleOf n i := by
  unfold dispatch roleOf expected
  rcases Nat.eq_zero_or_pos i with rfl | hi
  · simp [eq_comm]
  · rcases Nat.mod_two_eq_zero_or_one i with h | h
    · simp [h, hi.ne']
    · simp [h, hi.ne']

/-- **The latents of a video in closed form.** Before LAST has run, x0_prev is FIRST's last tile up to call 2, then the
tile of the SKIP that the latest CONCAT joined; x0_skip and x0_prev_ are the tile of the SKIP just made, before an even
call. -/
theorem latAt_eq {i : ℕ} (hi : i + 1 ≤ n) : latAt E n i = expected E i := by
  induction i with
  | zero => rfl
  | succ i ih =>
    rw [latAt, ih (by omega), dispatch_expected]
    have hn : ¬ i + 1 = n := by omega
    rcases Nat.eq_zero_or_pos i with rfl | hpos
    · have hn1 : ¬ n = 1 := by omega
      simp [roleOf, hn1, expected, commit, prevCall, Latents.none]
    · rcases Nat.mod_two_eq_zero_or_one i with h | h
      · -- CONCAT: x0_prev advances to x0_prev_, the tile of SKIP i - 1
        have h2 : 2 ≤ i := by omega
        have hsucc : (i + 1) % 2 = 1 := by omega
        have hprev : prevCall (i + 1) = i - 1 := by
          unfold prevCall
          split_ifs <;> omega
        simp [roleOf, hpos.ne', hn, h, expected, commit, hsucc, hprev]
      · -- SKIP: x0_prev stays
        have hsucc : (i + 1) % 2 = 0 := by omega
        have hprev : prevCall (i + 1) = prevCall i := by
          unfold prevCall
          split_ifs <;> omega
        simp [roleOf, hpos.ne', hn, h, expected, commit, hsucc, hprev]

/-- CONCAT's check passes: by then x0_prev and x0_skip are cached -/
theorem admitted_expected (i : ℕ) : admitted (roleOf n i) (expected E i) = true := by
  unfold roleOf
  split_ifs with h0 h1 h2 h3
  · rfl
  · rfl
  · rfl
  · rfl
  · have heven : i % 2 = 0 := by omega
    simp [admitted, expected, h0, heven]

/-- the number of tiles call i emits -/
def tilesOf (n i : ℕ) : ℕ := if n = 1 then 3 else if i = 0 ∨ i + 1 = n then 2 else 1

theorem tiles_expected {i : ℕ} (hi : i < n) : tiles (roleOf n i) (expected E i) = tilesOf n i := by
  unfold roleOf tilesOf
  split_ifs with h0 h1 h2 h3 h4 h5 h6 <;> first | omega | simp_all [tiles, expected]

/-- after the last call of a video nothing is cached -/
theorem latAt_end (hn : 0 < n) : latAt E n n = Latents.none := by
  obtain ⟨m, rfl⟩ : ∃ m, n = m + 1 := ⟨n - 1, by omega⟩
  rw [latAt, latAt_eq le_rfl, dispatch_expected]
  rcases Nat.eq_zero_or_pos m with rfl | hm
  · rfl
  · simp [roleOf, hm.ne', commit]

/-- the protocol moves tiles and never looks inside them -/
theorem latAt_map {υ : Type} (f : τ → υ) (E : ℕ → List τ) (n i : ℕ) :
    latAt (fun j => (E j).map f) n i = (latAt E n i).map f := by
  induction i with
  | zero => rfl
  | succ i ih => rw [latAt, latAt, ih, dispatch_map, commit_map]

/-- the latents before call i depend on the earlier calls only -/
theorem latAt_congr {E E' : ℕ → List τ} {n i : ℕ} (h : ∀ j < i, E j = E' j) : latAt E n i = latAt E' n i := by
  induction i with
  | zero => rfl
  | succ i ih => rw [latAt, latAt, ih fun j hj => h j (by omega), h i (by omega)]

/-- a video of n chunks emits n + 2 tiles -/
theorem sum_tilesOf (hn : 0 < n) : ∑ i ∈ Finset.range n, tilesOf n i = n + 2 := by
  obtain ⟨m, rfl⟩ : ∃ m, n = m + 1 := ⟨n - 1, by omega⟩
  rw [Finset.sum_range_succ]
  rcases Nat.eq_zero_or_pos m with rfl | hm
  · rfl
  · obtain ⟨k, rfl⟩ : ∃ k, m = k + 1 := ⟨m - 1, by omega⟩
    rw [Finset.sum_range_succ']
    have hmid : ∀ i ∈ Finset.range k, tilesOf (k + 1 + 1) (i + 1) = 1 := by
      intro i hi
      have hik : i < k := Finset.mem_range.1 hi
      simp [tilesOf, hik.ne]
    rw [Finset.sum_congr rfl hmid]
    simp [tilesOf]

end Protocol

/-! ## The session on one video -/

section Session

variable {V : Type} [Add V] [SMul ℚ V]

/-- a video of n chunks on staged clips of one geometry, nothing raising -/
structure Video (calls : ℕ → ChunkCall V) (n h w : ℕ) : Prop where
  index : ∀ i < n, (calls i).chunkIndex = i
  last : ∀ i < n, (calls i).isLast = decide (i + 1 = n)
  staged : ∀ i < n, Staged (calls i).input h w
  quiet : ∀ i < n, ∀ p, (calls i).env.fault p = none

/-- the outcome of call i -/
def resultAt (M : Precond V) (s : SkipConcatSession V) (calls : ℕ → ChunkCall V) (i : ℕ) : Except PyErr (Chunk V) :=
  ((interpolateChunk M (calls i)).run (stateAt (step M) s calls i)).1

/-- the tiles call i emits -/
def emittedAt (M : Precond V) (s : SkipConcatSession V) (calls : ℕ → ChunkCall V) (i : ℕ) : List (Tile V) :=
  match resultAt M s calls i with
  | .ok chunk => chunk.emitted
  | .error _ => []

variable {M : Precond V} {vc vh vw : ℕ} {s : SkipConcatSession V} {calls : ℕ → ChunkCall V} {n h w : ℕ}

/-- the session before call i: well formed, with the latents of the protocol -/
structure InStep (M : Precond V) (s : SkipConcatSession V) (calls : ℕ → ChunkCall V) (n i : ℕ) : Prop where
  wf : Wf (stateAt (step M) s calls i)
  calls_eq : (stateAt (step M) s calls i).calls = i
  latents : (stateAt (step M) s calls i).toLatents = latAt (emittedAt M s calls) n i

/-- a call of a video plays its role and gets past its denoising -/
theorem InStep.commits (hv : Video calls n h w) {i : ℕ} (hi : i < n) (hs : InStep M s calls n i) :
    role (stateAt (step M) s calls i) (calls i) = roleOf n i ∧
      Commits (stateAt (step M) s calls i) (calls i) := by
  have hlat := hs.latents
  rw [latAt_eq (by omega : i + 1 ≤ n)] at hlat
  have hrole : role (stateAt (step M) s calls i) (calls i) = roleOf n i := by
    rw [role, hlat, hv.index i hi, hv.last i hi, dispatch_expected]
  refine ⟨hrole, ⟨hv.quiet i hi _, hv.quiet i hi _, fun k _ => hv.quiet i hi _⟩, ?_⟩
  rw [hrole, hlat]
  exact admitted_expected i

/-- one call of a video: it returns, in its role, with 20 frames for each tile -/
theorem sequential_call (hM : ∀ k < n, M.Ok (calls k).input.shape.tail vc vh vw) (hv : Video calls n h w) {i : ℕ} (hi : i < n)
    (hs : InStep M s calls n i) :
    ∃ xt f, (interpolateChunk M (calls i)).run (stateAt (step M) s calls i) =
        (.ok ⟨roleOf n i, tag i xt, f⟩,
          { stateAt (step M) s calls i with
            toLatents := commit 1 (roleOf n i) (latAt (emittedAt M s calls) n i) (tag i xt), calls := i + 1 }) ∧
      xt.length = tilesOf n i ∧ f.shape = [20 * tilesOf n i, vc, min h vh, min w vw] := by
  obtain ⟨hrole, hcommits⟩ := hs.commits hv hi
  have hlat := hs.latents
  rw [latAt_eq (by omega : i + 1 ≤ n)] at hlat ⊢
  obtain ⟨xt, f, hrun, hxt, hf⟩ := call_ok hs.wf (hM i hi) (hv.staged i hi) hcommits (hv.quiet i hi _)
  rw [hrole, hlat, tiles_expected hi] at hxt hf
  rw [hrole, hlat, hs.calls_eq] at hrun
  exact ⟨xt, f, hrun, hxt, hf⟩

/-- the session follows the protocol through the whole video -/
theorem inStep (hM : ∀ k < n, M.Ok (calls k).input.shape.tail vc vh vw) (params : VfiParameters)
    (hv : Video calls n h w) {i : ℕ} (hi : i ≤ n) :
    InStep M (SkipConcatSession.init V params) calls n i := by
  induction i with
  | zero => exact ⟨wf_init params, rfl, rfl⟩
  | succ i ih =>
    have hs := ih (by omega)
    obtain ⟨xt, f, hrun, -⟩ := sequential_call hM hv (by omega) hs
    have hstep : stateAt (step M) (SkipConcatSession.init V params) calls (i + 1) = _ := congrArg Prod.snd hrun
    have hE : emittedAt M (SkipConcatSession.init V params) calls i = tag i xt := by
      simp only [emittedAt, resultAt, hrun]
    have hlt : i < n := by omega
    refine ⟨step_wf hs.wf (hM i hlt).toEncodes (hv.staged i hlt), by rw [hstep], ?_⟩
    rw [hstep, latAt, hE]
    rw [latAt_eq (by omega : i + 1 ≤ n), dispatch_expected]

/-- the call of a video, with its outcome -/
theorem video_call (hM : ∀ k < n, M.Ok (calls k).input.shape.tail vc vh vw) (params : VfiParameters)
    (hv : Video calls n h w) {i : ℕ} (hi : i < n) :
    ∃ xt f, resultAt M (SkipConcatSession.init V params) calls i = .ok ⟨roleOf n i, tag i xt, f⟩ ∧
      emittedAt M (SkipConcatSession.init V params) calls i = tag i xt ∧
      xt.length = tilesOf n i ∧ f.dim0 = 20 * tilesOf n i := by
  obtain ⟨xt, f, hrun, hxt, hf⟩ := sequential_call hM hv hi (inStep hM params hv hi.le)
  refine ⟨xt, f, by simp only [resultAt, hrun], by simp only [emittedAt, resultAt, hrun], hxt, ?_⟩
  simp [Tensor.dim0, hf]

/-- **A video.** On a fresh session, n calls with chunk_index 0 .. n-1 and is_last on the last one, none of them
failing: every call returns; the roles are FIRST, then SKIP and CONCAT by turns, then LAST (STANDALONE alone when n is
1); CONCAT k conditions on the last tile of FIRST (k = 2) or of SKIP k-3, and on the first tile of SKIP k-1; afterwards
nothing is cached, and 20 (n + 2) frames have come out. -/
theorem sequential_run (hM : ∀ k < n, M.Ok (calls k).input.shape.tail vc vh vw) (params : VfiParameters) (hn : 1 ≤ n)
    (hv : Video calls n h w) :
    ∃ chunks : ℕ → Chunk V,
      (∀ i < n, resultAt M (SkipConcatSession.init V params) calls i = .ok (chunks i)) ∧
      (n = 1 → (chunks 0).role = .standalone) ∧
      (2 ≤ n → (chunks 0).role = .first ∧ (∀ k < n - 1, k % 2 = 1 → (chunks k).role = .skip) ∧
        (∀ k < n - 1, 0 < k → k % 2 = 0 → (chunks k).role = .concat) ∧ (chunks (n - 1)).role = .last) ∧
      (∀ k < n - 1, 0 < k → k % 2 = 0 → ∃ prev skip,
        (chunks (if k = 2 then 0 else k - 3)).emitted.getLast? = some prev ∧
        (chunks (k - 1)).emitted.head? = some skip ∧
        (stateAt (step M) (SkipConcatSession.init V params) calls k).x0Prev = some [prev] ∧
        (stateAt (step M) (SkipConcatSession.init V params) calls k).x0Skip = some [skip]) ∧
      (stateAt (step M) (SkipConcatSession.init V params) calls n).toLatents = Latents.none ∧
      ∑ i ∈ Finset.range n, (chunks i).frames.dim0 = 20 * (n + 2) := by
  have hcall := fun i (hi : i < n) => video_call hM params hv hi
  choose! xt f hres hem hxt hf using hcall
  refine ⟨fun i => ⟨roleOf n i, tag i (xt i), f i⟩, hres, ?_, ?_, ?_, ?_, ?_⟩
  · rintro rfl
    rfl
  · intro h2
    refine ⟨?_, fun k hk h => ?_, fun k hk h0 h => ?_, ?_⟩ <;> simp only [roleOf] <;> split_ifs <;> first | rfl | omega
  · intro k hk h0 heven
    have hlat := (inStep hM params hv (by omega : k ≤ n)).latents
    rw [latAt_eq (by omega : k + 1 ≤ n)] at hlat
    have hprev : prevCall k = if k = 2 then 0 else k - 3 := by
      unfold prevCall
      split_ifs <;> omega
    have hne : ∀ i < n, tag i (xt i) ≠ [] := by
      intro i hi h
      have hlen := congrArg List.length h
      rw [tag_length, hxt i hi, List.length_nil, tilesOf] at hlen
      split_ifs at hlen
    have hpn : prevCall k < n := by rw [hprev]; split_ifs <;> omega
    have hsn : k - 1 < n := by omega
    have hsess := congrArg Latents.x0Prev hlat
    have hsess' := congrArg Latents.x0Skip hlat
    simp only [expected, h0.ne', if_false, heven, if_true, hem _ hpn, lastTiles_one (hne _ hpn)] at hsess
    simp only [expected, h0.ne', if_false, heven, if_true, hem _ hsn, firstTiles_one (hne _ hsn)] at hsess'
    refine ⟨_, _, ?_, List.head?_eq_some_head (hne _ hsn), hsess, hsess'⟩
    rw [← hprev]
    exact List.getLast?_eq_some_getLast (hne _ hpn)
  · rw [(inStep hM params hv le_rfl).latents]
    exact latAt_end hn
  · rw [← sum_tilesOf hn, Finset.mul_sum]
    exact Finset.sum_congr rfl fun i hi => hf i (Finset.mem_range.1 hi)

end Session

/-! ## The test suite's video -/

/-- n chunks of one keyframe each on the mock model -/
def mockVideo (n : ℕ) : ℕ → ChunkCall Unit := fun i => ⟨i, frame32, decide (i + 1 = n), quiet⟩

theorem mockVideo_video (n : ℕ) : Video (mockVideo n) n 32 32 :=
  ⟨fun _ _ => rfl, fun _ _ => rfl, fun _ _ => staged_frame32, fun _ _ _ => rfl⟩

/-- the four chunks of the test suite yield 120 frames -/
theorem sequential_run_mock :
    ∃ chunks : ℕ → Chunk Unit,
      (∀ i < 4, resultAt mockModel (SkipConcatSession.init Unit ⟨4, 10⟩) (mockVideo 4) i = .ok (chunks i)) ∧
      (chunks 2).role = .concat ∧ ∑ i ∈ Finset.range 4, (chunks i).frames.dim0 = 120 := by
  obtain ⟨chunks, hres, -, hroles, -, -, hsum⟩ :=
    sequential_run (fun _ _ => mockModel_ok _) ⟨4, 10⟩ (n := 4) (by decide) (mockVideo_video 4)
  exact ⟨chunks, hres, (hroles (by decide)).2.2.1 2 (by decide) (by decide) (by decide), hsum⟩

end Viduce.Schedule
