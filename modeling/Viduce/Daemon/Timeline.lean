/-
Where the emitted tiles of a video lie on its timeline. Tiles come out of time order: a SKIP is emitted before the CONCAT
that precedes it in time, and it gets its place only when a CONCAT's window joins it to the tile before.

- `Window.place`: FIRST's tiles start the timeline; CONCAT's window is the x0_prev tile, the tiles it emits, the x0_skip
  tile; LAST's tiles follow x0_prev. A tile no window joins has no place.
- `place_before`: the places after each call of the protocol, in closed form.
- `covers_iff_even`: of a video of n >= 2 chunks, LAST starts with no SKIP pending, every SKIP is joined by one CONCAT, and
  the places of the emitted tiles are 0 .. n+1, each once, exactly when n is even. With n odd the SKIP before LAST is
  dropped: LAST does not look at x0_skip.
-/
import Mathlib.Tactic
import Viduce.Daemon.Origin
import Viduce.Daemon.Schedule

namespace Viduce.Timeline

open Viduce.Chunks Viduce.Run Viduce.SessionRunner Viduce.Schedule
open Viduce.Origin (TileId tileId origins)

/-! ## Placement -/

/-- one call: its role, the latents it starts from, the tiles it emits -/
structure Window where
  role : Role
  lat : Latents TileId
  tiles : List TileId

/-- puts the tiles of a list one after another from `base` on -/
def put (pos : TileId → Option ℕ) (base : Option ℕ) (ts : List TileId) : TileId → Option ℕ :=
  fun t => if t ∈ ts then base.map (· + ts.idxOf t) else pos t

@[simp] theorem put_nil (pos : TileId → Option ℕ) (base : Option ℕ) : put pos base [] = pos := by
  funext t
  simp [put]

theorem put_cons (pos : TileId → Option ℕ) (base : Option ℕ) (x : TileId) (xs : List TileId) (t : TileId) :
    put pos base (x :: xs) t = if t = x then base else put pos (base.map (· + 1)) xs t := by
  unfold put
  by_cases h : t = x
  · subst h
    simp
  · have hidx : (x :: xs).idxOf t = xs.idxOf t + 1 := List.idxOf_cons_ne _ (Ne.symm h)
    simp only [List.mem_cons, h, false_or, hidx, if_false, Option.map_map]
    congr 2
    funext k
    simp only [Function.comp_apply]
    omega

/-- the place right after a cached latent -/
def after (pos : TileId → Option ℕ) (x0 : Option (List TileId)) : Option ℕ :=
  ((x0.bind List.getLast?).bind pos).map (· + 1)

/-- the places after a call -/
def Window.place (pos : TileId → Option ℕ) (w : Window) : TileId → Option ℕ :=
  match w.role with
  | .first => put pos (some 0) w.tiles
  | .concat => put pos (after pos w.lat.x0Prev) (w.tiles ++ w.lat.x0Skip.getD [])
  | .last => put pos (after pos w.lat.x0Prev) w.tiles
  | .skip => pos
  | .standalone => pos

/-- the places after a run -/
def placement (ws : List Window) : TileId → Option ℕ := ws.foldl Window.place fun _ => none

/-- the places of all tiles emitted by a run -/
def timeline (ws : List Window) : List (Option ℕ) := (ws.flatMap Window.tiles).map (placement ws)

/-! ## A video of the protocol -/

section Protocol

/-- the tiles of call i of a video, by origin -/
def emits (n i : ℕ) : List TileId := origins i (tilesOf n i)

/-- call i of a video -/
def window (n i : ℕ) : Window := ⟨roleOf n i, latAt (emits n) n i, emits n i⟩

def windows (n : ℕ) : List Window := (List.range n).map (window n)

/-- the places before call i: FIRST at 0 and 1, CONCAT j at j, and SKIP j at j + 2 once CONCAT j + 1 has run -/
def placeBefore (i : ℕ) : TileId → Option ℕ := fun t =>
  if t.1 = 0 ∧ t.2 < 2 ∧ 0 < i then some t.2
  else if t.1 % 2 = 0 ∧ 0 < t.1 ∧ t.1 < i ∧ t.2 = 0 then some t.1
  else if t.1 % 2 = 1 ∧ t.1 + 1 < i ∧ t.2 = 0 then some (t.1 + 2)
  else none

theorem emits_first {n : ℕ} (h : 2 ≤ n) : emits n 0 = [(0, 0), (0, 1)] := by
  have : ¬ n = 1 := by omega
  simp [emits, tilesOf, this, origins, List.range_succ]

theorem emits_mid {n i : ℕ} (h0 : 0 < i) (h : i + 1 < n) : emits n i = [(i, 0)] := by
  have h1 : ¬ n = 1 := by omega
  have h2 : ¬ (i = 0 ∨ i + 1 = n) := by omega
  simp [emits, tilesOf, h1, h2, origins]

theorem emits_last {n : ℕ} (h : 2 ≤ n) : emits n (n - 1) = [(n - 1, 0), (n - 1, 1)] := by
  have h1 : ¬ n = 1 := by omega
  have h2 : n - 1 = 0 ∨ n - 1 + 1 = n := by omega
  simp [emits, tilesOf, h1, h2, origins, List.range_succ]

/-- x0_prev lies right before an even call's own number, and one further before an odd call's -/
theorem after_prev {n i : ℕ} (h0 : 0 < i) (hi : i + 1 ≤ n) :
    after (placeBefore i) (latAt (emits n) n i).x0Prev = some (i + i % 2) := by
  have hfirst : emits n 0 = [(0, 0), (0, 1)] := emits_first (by omega)
  rw [latAt_eq hi]
  simp only [expected, h0.ne', if_false, prevCall, after, Option.bind_some]
  split_ifs with h2 hodd
  · have hi2 : i = 1 ∨ i = 2 := by omega
    rw [hfirst]
    rcases hi2 with rfl | rfl <;> rfl
  · rw [emits_mid (by omega) (by omega)]
    have h1 : ¬ (i - 2 = 0) := by omega
    have h4 : (i - 2) % 2 = 1 ∧ i - 2 + 1 < i := by omega
    simp [lastTiles, placeBefore, h1, h4]
    omega
  · rw [emits_mid (by omega) (by omega)]
    have h1 : ¬ (i - 3 = 0) := by omega
    have h4 : (i - 3) % 2 = 1 ∧ i - 3 + 1 < i := by omega
    simp [lastTiles, placeBefore, h1, h4]
    omega

/-- **Places in closed form**, as long as LAST has not run -/
theorem place_before {n i : ℕ} (hi : i + 1 ≤ n) (h2 : 2 ≤ n) :
    placement ((List.range i).map (window n)) = placeBefore i := by
  induction i with
  | zero => funext t; simp [placement, placeBefore]
  | succ i ih =>
    rw [List.range_succ, List.map_append, placement, List.foldl_append, ← placement, ih (by omega)]
    have hn1 : ¬ n = 1 := by omega
    have hin : ¬ i + 1 = n := by omega
    simp only [List.map_cons, List.map_nil, List.foldl_cons, List.foldl_nil]
    rcases Nat.eq_zero_or_pos i with rfl | h0
    · have hrole : roleOf n 0 = .first := by simp [roleOf, hn1]
      funext t
      obtain ⟨a, b⟩ := t
      simp only [Window.place, window, hrole, emits_first h2, put_cons, put_nil, placeBefore, Prod.mk.injEq]
      split_ifs <;> first | rfl | (exfalso; omega) | (simp only [Option.map_some, Option.some.injEq]; omega)
    · rcases Nat.mod_two_eq_zero_or_one i with h | h
      · have hrole : roleOf n i = .concat := by simp [roleOf, h0.ne', hin, h]
        have hskip : (latAt (emits n) n i).x0Skip.getD [] = [(i - 1, 0)] := by
          rw [latAt_eq (by omega)]
          simp [expected, h0.ne', h, emits_mid (n := n) (i := i - 1) (by omega) (by omega), firstTiles]
        funext t
        obtain ⟨a, b⟩ := t
        simp only [Window.place, window, hrole, hskip, after_prev h0 (by omega : i + 1 ≤ n),
          emits_mid h0 (by omega : i + 1 < n), h,
          List.cons_append, List.nil_append, put_cons, put_nil, placeBefore, Prod.mk.injEq]
        split_ifs <;> first | rfl | (exfalso; omega) | (simp only [Option.map_some, Option.some.injEq]; omega)
      · have hrole : roleOf n i = .skip := by simp [roleOf, h0.ne', hin, h]
        funext t
        simp only [Window.place, window, hrole, placeBefore]
        split_ifs <;> first | rfl | (exfalso; omega)

/-- the places after the whole video: LAST's two tiles follow x0_prev -/
theorem place_end {n : ℕ} (h2 : 2 ≤ n) :
    placement (windows n) = put (placeBefore (n - 1)) (some (n - 1 + (n - 1) % 2)) [(n - 1, 0), (n - 1, 1)] := by
  have hsplit : windows n = (List.range (n - 1)).map (window n) ++ [window n (n - 1)] := by
    have hn : n = n - 1 + 1 := by omega
    rw [windows, hn, List.range_succ, List.map_append]
    rfl
  have hrole : roleOf n (n - 1) = .last := by
    have h0 : ¬ n - 1 = 0 := by omega
    have h1 : n - 1 + 1 = n := by omega
    simp [roleOf, h0, h1]
  rw [hsplit, placement, List.foldl_append, ← placement, place_before (by omega) h2]
  simp only [List.foldl_cons, List.foldl_nil, Window.place, window, hrole, emits_last h2]
  rw [after_prev (by omega) (by omega)]

/-- LAST moves no earlier tile -/
theorem place_end_of_ne {n : ℕ} (h2 : 2 ≤ n) {t : TileId} (ht : t.1 ≠ n - 1) :
    placement (windows n) t = placeBefore (n - 1) t := by
  have h : ∀ b, t ≠ (n - 1, b) := fun b h => ht (congrArg Prod.fst h)
  rw [place_end h2, put_cons, put_cons, put_nil, if_neg (h 0), if_neg (h 1)]

theorem place_skip {n i : ℕ} (hodd : i % 2 = 1) (hi : i + 2 < n) : placement (windows n) (i, 0) = some (i + 2) := by
  rw [place_end_of_ne (by omega) (by simp only; omega)]
  unfold placeBefore
  split_ifs <;> first | rfl | (exfalso; omega)

theorem place_concat {n i : ℕ} (h0 : 0 < i) (heven : i % 2 = 0) (hi : i + 1 < n) :
    placement (windows n) (i, 0) = some i := by
  rw [place_end_of_ne (by omega) (by simp only; omega)]
  unfold placeBefore
  split_ifs <;> first | rfl | (exfalso; omega)

/-- FIRST, then the pairs SKIP 2j+1, CONCAT 2j+2 up to some j, fill the timeline from its start -/
theorem timeline_pairs {m j : ℕ} (hj : j ≤ m) :
    (((List.range (2 * j + 1)).flatMap (emits (2 * m + 2))).map (placement (windows (2 * m + 2)))).Perm
      ((List.range (2 * j + 2)).map some) := by
  induction j with
  | zero =>
    rw [place_end (by omega)]
    simp [emits_first, put_cons, placeBefore, List.range_succ]
  | succ j ih =>
    have hskip : emits (2 * m + 2) (2 * j + 1) = [(2 * j + 1, 0)] := emits_mid (by omega) (by omega)
    have hcat : emits (2 * m + 2) (2 * j + 2) = [(2 * j + 2, 0)] := emits_mid (by omega) (by omega)
    have hps : placement (windows (2 * m + 2)) (2 * j + 1, 0) = some (2 * j + 3) :=
      place_skip (by omega) (by omega)
    have hpc : placement (windows (2 * m + 2)) (2 * j + 2, 0) = some (2 * j + 2) :=
      place_concat (by omega) (by omega) (by omega)
    have hr : ∀ k, List.range (k + 2) = List.range k ++ [k, k + 1] := fun k => by
      rw [List.range_succ, List.range_succ, List.append_assoc]
      rfl
    rw [show 2 * (j + 1) + 1 = 2 * j + 1 + 2 by ring, show 2 * (j + 1) + 2 = 2 * j + 2 + 2 by ring, hr, hr (2 * j + 2)]
    simp only [List.flatMap_append, List.flatMap_cons, List.flatMap_nil, List.append_nil, List.map_append, hskip, hcat,
      List.map_cons, List.map_nil, hps, hpc, List.cons_append, List.nil_append]
    exact (ih (by omega)).append (List.Perm.swap _ _ _)

theorem windows_tiles (n : ℕ) : (windows n).flatMap Window.tiles = (List.range n).flatMap (emits n) := by
  simp only [windows, List.flatMap_map]
  rfl

/-- **Even videos cover their timeline**, each place once -/
theorem timeline_even {n : ℕ} (h2 : 2 ≤ n) (heven : Even n) :
    (timeline (windows n)).Perm ((List.range (n + 2)).map some) := by
  obtain ⟨m, rfl⟩ : ∃ m, n = 2 * m + 2 := by
    obtain ⟨k, rfl⟩ := heven
    exact ⟨k - 1, by omega⟩
  have hlast : emits (2 * m + 2) (2 * m + 1) = [(2 * m + 1, 0), (2 * m + 1, 1)] := emits_last h2
  have hpl : (emits (2 * m + 2) (2 * m + 1)).map (placement (windows (2 * m + 2))) =
      [some (2 * m + 2), some (2 * m + 3)] := by
    have hmod : (2 * m + 1) % 2 = 1 := by omega
    rw [hlast, place_end h2]
    simp [put_cons, hmod]
  have hr : List.range (2 * m + 2 + 2) = List.range (2 * m + 2) ++ [2 * m + 2, 2 * m + 3] := by
    rw [List.range_succ, List.range_succ, List.append_assoc]
    rfl
  rw [timeline, windows_tiles, List.range_succ, List.flatMap_append, List.map_append, hr, List.map_append]
  apply (timeline_pairs le_rfl).append
  simp only [List.flatMap_cons, List.flatMap_nil, List.append_nil, hpl]
  rfl

/-- **Odd videos drop a tile**: no window joins the SKIP before LAST -/
theorem timeline_odd {n : ℕ} (h2 : 2 ≤ n) (hodd : ¬ Even n) : none ∈ timeline (windows n) := by
  have hmod : n % 2 = 1 := by rw [Nat.even_iff] at hodd; omega
  rw [timeline, windows_tiles]
  refine List.mem_map.2 ⟨(n - 2, 0), List.mem_flatMap.2 ⟨n - 2, List.mem_range.2 (by omega), ?_⟩, ?_⟩
  · rw [emits_mid (by omega) (by omega)]
    exact List.mem_singleton_self _
  · rw [place_end_of_ne h2 (by simp only; omega)]
    unfold placeBefore
    split_ifs <;> first | rfl | (exfalso; omega)

end Protocol

/-! ## A video of the session -/

section Session

variable {V : Type} [Add V] [SMul ℚ V]

/-- call i as a window; none if it raises -/
def windowAt (M : Precond V) (s : SkipConcatSession V) (calls : ℕ → ChunkCall V) (i : ℕ) : Option Window :=
  match resultAt M s calls i with
  | .ok chunk => some ⟨chunk.role, (stateAt (step M) s calls i).toLatents.map tileId, chunk.emitted.map tileId⟩
  | .error _ => none

/-- the emitted tiles cover the timeline of n chunks -/
structure Covers (M : Precond V) (s : SkipConcatSession V) (calls : ℕ → ChunkCall V) (n : ℕ) : Prop where
  /-- x0_skip is None when LAST starts -/
  no_pending : (stateAt (step M) s calls (n - 1)).x0Skip = none
  /-- every SKIP is filled in by exactly one later CONCAT -/
  joined : ∀ j < n, role (stateAt (step M) s calls j) (calls j) = .skip →
    ∃! k, j < k ∧ k < n ∧ role (stateAt (step M) s calls k) (calls k) = .concat ∧
      (stateAt (step M) s calls k).x0Skip = some (emittedAt M s calls j)
  /-- the places of the emitted tiles are 0 .. n+1, each once -/
  places : (timeline ((List.range n).filterMap (windowAt M s calls))).Perm ((List.range (n + 2)).map some)

variable {M : Precond V} {vc vh vw : ℕ} {calls : ℕ → ChunkCall V} {n h w : ℕ}

/-- the windows of a session's video are those of the protocol -/
theorem windowAt_eq (hM : ∀ k < n, M.Ok (calls k).input.shape.tail vc vh vw) (params : VfiParameters)
    (hv : Video calls n h w) {i : ℕ} (hi : i < n) :
    windowAt M (SkipConcatSession.init V params) calls i = some (window n i) := by
  have hem : ∀ j < n, (emittedAt M (SkipConcatSession.init V params) calls j).map tileId = emits n j := by
    intro j hj
    obtain ⟨xt, f, -, he, hxt, -⟩ := video_call hM params hv hj
    rw [he, Origin.map_tag, hxt, emits]
  obtain ⟨xt, f, hres, he, -⟩ := video_call hM params hv hi
  have hlat : (stateAt (step M) (SkipConcatSession.init V params) calls i).toLatents.map tileId =
      latAt (emits n) n i := by
    rw [(inStep hM params hv hi.le).latents, ← latAt_map]
    exact latAt_congr fun j hj => hem j (by omega)
  rw [windowAt, hres]
  simp only [hlat, window, ← he, hem i hi]

theorem windows_eq (hM : ∀ k < n, M.Ok (calls k).input.shape.tail vc vh vw) (params : VfiParameters)
    (hv : Video calls n h w) :
    (List.range n).filterMap (windowAt M (SkipConcatSession.init V params) calls) = windows n := by
  rw [windows, ← List.filterMap_eq_map]
  apply List.filterMap_congr
  intro i hi
  exact windowAt_eq hM params hv (List.mem_range.1 hi)

/-- a call between FIRST and LAST emits one tile -/
theorem emitted_mid (hM : ∀ k < n, M.Ok (calls k).input.shape.tail vc vh vw) (params : VfiParameters)
    (hv : Video calls n h w) {i : ℕ} (h0 : 0 < i) (hi : i + 1 < n) :
    ∃ v, emittedAt M (SkipConcatSession.init V params) calls i = [⟨v, i, 0⟩] := by
  obtain ⟨xt, f, -, he, hxt, -⟩ := video_call hM params hv (by omega : i < n)
  have h1 : tilesOf n i = 1 := by
    unfold tilesOf
    split_ifs <;> omega
  obtain ⟨v, rfl⟩ := List.length_eq_one_iff.1 (hxt.trans h1)
  exact ⟨v, he⟩

theorem roleOf_skip {i : ℕ} : roleOf n i = .skip ↔ i ≠ 0 ∧ i + 1 ≠ n ∧ i % 2 = 1 := by
  unfold roleOf
  split_ifs <;> simp_all

theorem roleOf_concat {i : ℕ} : roleOf n i = .concat ↔ i ≠ 0 ∧ i + 1 ≠ n ∧ i % 2 = 0 := by
  unfold roleOf
  split_ifs <;> simp_all

/-- the session's roles and pending SKIP before call i of a video -/
theorem video_role (hM : ∀ k < n, M.Ok (calls k).input.shape.tail vc vh vw) (params : VfiParameters)
    (hv : Video calls n h w) {i : ℕ} (hi : i < n) :
    role (stateAt (step M) (SkipConcatSession.init V params) calls i) (calls i) = roleOf n i ∧
      (stateAt (step M) (SkipConcatSession.init V params) calls i).x0Skip =
        if i ≠ 0 ∧ i % 2 = 0 then some (firstTiles 1 (emittedAt M (SkipConcatSession.init V params) calls (i - 1)))
        else none := by
  have hlat := (inStep hM params hv hi.le).latents.trans (latAt_eq hi)
  refine ⟨by rw [role, hlat, hv.index i hi, hv.last i hi, dispatch_expected], ?_⟩
  have hskip := congrArg Latents.x0Skip hlat
  rw [hskip]
  unfold expected
  split_ifs <;> first | rfl | simp_all

/-- **Coverage.** A failure-free video of n >= 2 chunks covers its timeline exactly when n is even. -/
theorem covers_iff_even (hM : ∀ k < n, M.Ok (calls k).input.shape.tail vc vh vw) (params : VfiParameters) (h2 : 2 ≤ n)
    (hv : Video calls n h w) :
    Covers M (SkipConcatSession.init V params) calls n ↔ Even n := by
  refine ⟨?_, ?_⟩
  · intro hc
    by_contra hodd
    rw [Nat.even_iff] at hodd
    have hskip := (video_role hM params hv (by omega : n - 1 < n)).2
    rw [hc.no_pending, if_pos (by omega)] at hskip
    cases hskip
  · intro heven
    have hmod := Nat.even_iff.1 heven
    refine ⟨?_, ?_, ?_⟩
    · rw [(video_role hM params hv (by omega : n - 1 < n)).2, if_neg (by omega)]
    · intro j hj hr
      rw [(video_role hM params hv hj).1, roleOf_skip] at hr
      obtain ⟨h0, hlast, hodd⟩ := hr
      have hj1 : j + 1 < n := by omega
      obtain ⟨v, hE⟩ := emitted_mid hM params hv (by omega : 0 < j) hj1
      refine ⟨j + 1, ⟨by omega, hj1, ?_, ?_⟩, ?_⟩
      · rw [(video_role hM params hv hj1).1, roleOf_concat]
        omega
      · rw [(video_role hM params hv hj1).2, if_pos (by omega), Nat.add_sub_cancel, hE]
        rfl
      · -- a CONCAT conditions on the SKIP just before it
        intro k h
        rcases h with ⟨hjk, hkn, hrk, hsk⟩
        rw [(video_role hM params hv hkn).1, roleOf_concat] at hrk
        obtain ⟨u, hE'⟩ := emitted_mid hM params hv (by omega : 0 < k - 1) (by omega)
        rw [(video_role hM params hv hkn).2, if_pos (by omega), hE', hE] at hsk
        simp only [firstTiles, List.take_one, List.head?_cons, Option.toList_some, Option.some.injEq, List.cons.injEq,
          Tile.mk.injEq] at hsk
        omega
    · rw [windows_eq hM params hv]
      exact timeline_even h2 heven

/-- the test suite's four chunks cover their timeline -/
theorem covers_mock_four : Covers mockModel (SkipConcatSession.init Unit ⟨4, 10⟩) (mockVideo 4) 4 :=
  (covers_iff_even (fun _ _ => mockModel_ok _) ⟨4, 10⟩ (by decide) (mockVideo_video 4)).2 (by decide)

/-- three chunks do not: the SKIP of chunk 1 is pending when LAST starts, and its tile gets no place -/
theorem three_chunks_drop_skip :
    ¬ (∀ n, 2 ≤ n → Covers mockModel (SkipConcatSession.init Unit ⟨4, 10⟩) (mockVideo n) n) ∧
      (stateAt (step mockModel) (SkipConcatSession.init Unit ⟨4, 10⟩) (mockVideo 3) 2).x0Skip ≠ none ∧
      none ∈ timeline ((List.range 3).filterMap
        (windowAt mockModel (SkipConcatSession.init Unit ⟨4, 10⟩) (mockVideo 3))) := by
  have hpending : (stateAt (step mockModel) (SkipConcatSession.init Unit ⟨4, 10⟩) (mockVideo 3) 2).x0Skip ≠ none := by
    rw [(video_role (fun _ _ => mockModel_ok _) ⟨4, 10⟩ (mockVideo_video 3) (by decide)).2]
    simp
  refine ⟨fun h => hpending (h 3 (by decide)).no_pending, hpending, ?_⟩
  rw [windows_eq (fun _ _ => mockModel_ok _) ⟨4, 10⟩ (mockVideo_video 3)]
  exact timeline_odd (by decide) (by decide)

end Session

end Viduce.Timeline
