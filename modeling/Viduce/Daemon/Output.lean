/-
What a chunk call hands to the writer, against what its session was built with: the room of the output segment, the
geometry of the writer, the span of the staged keyframes.

- `reached_built`: the scale factor, the geometry and the sizes of both segments never change.
- `handed_shape`: the runner hands over 20 frames for each tile of its role, whatever was staged.
- `output_fits_iff`: they fit the output segment exactly when the scale factor is at least 2 or the role emits one tile.
- `servable_iff`: the writer takes them exactly when the session has three channels and is not a narrow one.
- `answer_span`: they are more than the keyframes span whenever the keyframes do not fill the window of the role.
-/
import Mathlib.Tactic
import Viduce.Daemon.Retry

namespace Viduce.Session

open Viduce.Chunks Viduce.Run Viduce.SessionRunner Viduce.Shm

variable {V : Type}

/-! ## What never changes -/

/-- `params.temporal_scale_factor if params.temporal_scale_factor > 0 else 4` -/
def temporalSf (params : VfiParameters) : ℕ :=
  if params.temporalScaleFactor > 0 then params.temporalScaleFactor.toNat else 4

theorem temporalSf_pos (params : VfiParameters) : 0 < temporalSf params := by
  unfold temporalSf
  split_ifs <;> omega

/-- what a session keeps from its construction on -/
structure Built (params : VfiParameters) (g : Geometry) (s : VfiSession V) : Prop where
  wf : Wf s
  sf : s.runner.temporalSf = temporalSf params
  geometry : s.shmReader.geometry = g
  inputRoom : s.shmReader.buf.length = 30 * g.frameBytes
  maxOutput : s.maxOutputFrames = 30 * temporalSf params
  outputRoom : s.shmWriter.buf.length = s.maxOutputFrames * g.frameBytes

theorem Built.ok {params : VfiParameters} {g : Geometry} {s : VfiSession V} (h : Built params g s) {M : Precond V}
    {vc vh vw : ℕ} (hM : M.Ok g.frameShape vc vh vw) : M.Ok s.shmReader.geometry.frameShape vc vh vw := by
  rw [h.geometry]
  exact hM

theorem Built.writerGeometry {params : VfiParameters} {g : Geometry} {s : VfiSession V} (h : Built params g s) :
    s.shmWriter.geometry = g := h.wf.geometry.trans h.geometry

theorem fresh_built (id : String) (params : VfiParameters) (g : Geometry) :
    Built params g (VfiSession.fresh V id params g) where
  wf := fresh_wf id params g
  sf := rfl
  geometry := rfl
  inputRoom := List.length_replicate
  maxOutput := rfl
  outputRoom := List.length_replicate

theorem stage_built {params : VfiParameters} {g : Geometry} {s : VfiSession V} (h : Built params g s)
    (bytes : List UInt8) : Built params g (s.stage bytes) where
  wf := stage_wf h.wf bytes
  sf := h.sf
  geometry := h.geometry
  inputRoom := by
    have hroom := h.inputRoom
    simp only [VfiSession.stage, List.length_append, List.length_take, List.length_drop]
    omega
  maxOutput := h.maxOutput
  outputRoom := h.outputRoom

/-- a write that passes its checks keeps the length of the buffer -/
theorem toHwc_length {g : Geometry} {x : Tensor UInt8} {len : ℕ} (h : Writable g len x.shape) :
    (toHwc x).numel = x.dim0 * g.frameBytes ∧ x.dim0 * g.frameBytes ≤ len := by
  unfold Writable at h
  split at h
  · rename_i d0 d1 d2 d3 hshape
    simp only [toHwc, Tensor.dim0, hshape, List.headD_cons]
    split_ifs at h ⊢
    · refine ⟨?_, h.room⟩
      rw [Tensor.numel, (permute_hwc hshape).1, h.width, h.height, h.channels]
      simp only [List.prod_cons, List.prod_nil, Geometry.frameBytes]
      ring
    · refine ⟨?_, h.room⟩
      rw [Tensor.numel, hshape, h.width, h.height, h.channels]
      simp only [List.prod_cons, List.prod_nil, Geometry.frameBytes]
      ring
  · exact h.elim

theorem writeTensor_length (g : Geometry) (x : Tensor UInt8) (buf : List UInt8) :
    ((writeTensor g x).run buf).2.length = buf.length := by
  by_cases h : Writable g buf.length x.shape
  · obtain ⟨hnumel, hroom⟩ := toHwc_length h
    rw [writeTensor_ok h]
    simp only [List.length_append, Tensor.toList_length, List.length_drop, hnumel]
    omega
  · obtain ⟨e, he⟩ := writeTensor_error h
    rw [he]

section Reached

variable [Add V] [SMul ℚ V]

theorem interpolateChunk_temporalSf (M : Precond V) (c : ChunkCall V) (s : SkipConcatSession V) :
    ((SessionRunner.interpolateChunk M c).run s).2.temporalSf = s.temporalSf := by
  rw [SessionRunner.interpolateChunk_run]
  split <;> rfl

/-- a chunk call keeps the scale factor of the runner and the length of the output buffer -/
theorem chunk_keeps (M : Precond V) (a : ChunkArgs V) (s : VfiSession V) :
    ((VfiSession.interpolateChunk M a).run s).2.runner.temporalSf = s.runner.temporalSf ∧
      ((VfiSession.interpolateChunk M a).run s).2.shmWriter.buf.length = s.shmWriter.buf.length := by
  rw [interpolateChunk_run]
  cases s.input a with
  | error e => exact ⟨rfl, rfl⟩
  | ok x =>
    have hsf := interpolateChunk_temporalSf M ⟨a.chunkIndex, x, a.isLast, a.env⟩ s.runner
    simp only
    split
    · exact ⟨hsf, rfl⟩
    · split
      · exact ⟨hsf, rfl⟩
      · exact ⟨hsf, writeTensor_length _ _ _⟩

variable {M : Precond V} {vc vh vw : ℕ}

theorem chunk_built {g : Geometry} (hM : M.Encodes g.frameShape) {params : VfiParameters} {s : VfiSession V}
    (h : Built params g s) (a : ChunkArgs V) : Built params g ((VfiSession.interpolateChunk M a).run s).2 := by
  have hwf := chunk_wf (by rw [h.geometry]; exact hM) h.wf a
  obtain ⟨hsf, hlen⟩ := chunk_keeps M a s
  obtain ⟨r, b, hframe⟩ := chunk_frame M a s
  rw [hframe] at hwf hsf hlen ⊢
  exact ⟨hwf, hsf.trans h.sf, h.geometry, h.inputRoom, h.maxOutput, hlen.trans h.outputRoom⟩

/-- a session after chunk calls, some of which may have failed, and frames staged between them -/
def reached (M : Precond V) (id : String) (params : VfiParameters) (g : Geometry) (ops : List (SessionOp V)) :
    VfiSession V :=
  run (sessionStep M) (VfiSession.fresh V id params g) ops

/-- every state of a session is built as its first one -/
theorem reached_built {g : Geometry} (hM : M.Encodes g.frameShape) (id : String) (params : VfiParameters)
    (ops : List (SessionOp V)) : Built params g (reached M id params g ops) := by
  refine run_inv (fun s o hs => ?_) (fresh_built id params g) ops
  cases o with
  | chunk a => exact chunk_built hM hs a
  | stage bytes => exact stage_built hs bytes

end Reached

/-! ## What the writer is handed -/

section Handed

variable [Add V] [SMul ℚ V]

/-- what the runner returns during a chunk call, for the writer -/
def Handed (M : Precond V) (s : VfiSession V) (a : ChunkArgs V) (frames : Tensor UInt8) : Prop :=
  ∃ x chunk r, s.input a = .ok x ∧ chunk.frames = frames ∧
    (SessionRunner.interpolateChunk M ⟨a.chunkIndex, x, a.isLast, a.env⟩).run s.runner = (.ok chunk, r)

/-- nothing raises before the writer -/
structure ReachesWriter (s : VfiSession V) (a : ChunkArgs V) : Prop where
  reads : Reads s a
  commits : CommitsIn s a
  decodes : a.env.fault .vaeDecode = none

/-- nothing raises at all -/
def Answers (vc vh vw : ℕ) (s : VfiSession V) (a : ChunkArgs V) : Prop :=
  Reads s a ∧ CommitsIn s a ∧ ¬ FailsLate vc vh vw s a

variable {M : Precond V} {vc vh vw : ℕ}

/-- **The frames handed over.** The runner returns exactly when nothing raises before the writer, and what it returns
has 20 frames for each tile of the role, cut to the frame or left at what the VAE decodes. -/
theorem handed_shape {s : VfiSession V} (hM : M.Ok s.shmReader.geometry.frameShape vc vh vw) (hs : Wf s)
    (a : ChunkArgs V) :
    (∀ frames, Handed M s a frames → ReachesWriter s a ∧
      frames.shape = [20 * tiles (roleIn s a) s.runner.toLatents, vc, min s.shmReader.geometry.height vh,
        min s.shmReader.geometry.width vw]) ∧
      (ReachesWriter s a → ∃ frames, Handed M s a frames) := by
  by_cases hr : Reads s a
  · obtain ⟨x, hx, hinput, hpos⟩ := input_ok hr
    rcases step_cases hM.toEncodes hs.runner (c := ⟨a.chunkIndex, x, a.isLast, a.env⟩) hinput hpos with
        ⟨hc, g, -, hg, htail, hrun⟩ | ⟨hc, e, hrun⟩
    · refine ⟨?_, ?_⟩
      · intro frames h
        rcases h with ⟨x', chunk, r, hx', rfl, hrun'⟩
        obtain rfl : x = x' := Except.ok.inj (hx.symm.trans hx')
        rw [hrun] at hrun'
        obtain ⟨hout, -⟩ := Prod.mk.inj hrun'
        cases hd : g.decode M a.env with
        | error e =>
          rw [hd] at hout
          cases hout
        | ok f =>
          rw [hd] at hout
          cases hout
          have hv := decode_fault hd
          obtain ⟨f', hf', hshape⟩ := decode_shape hM hg htail (tiles_pos _ _) hv
          obtain rfl : f = f' := Except.ok.inj (hd.symm.trans hf')
          exact ⟨⟨hr, hc, hv⟩, hshape⟩
      · intro h
        obtain ⟨f, hf, -⟩ := decode_shape hM hg htail (tiles_pos _ _) h.decodes
        rw [hf] at hrun
        exact ⟨f, x, _, _, hx, rfl, hrun⟩
    · refine ⟨?_, fun h => absurd h.commits hc⟩
      intro frames h
      rcases h with ⟨x', chunk, r, hx', -, hrun'⟩
      obtain rfl : x = x' := Except.ok.inj (hx.symm.trans hx')
      rw [hrun] at hrun'
      cases hrun'
  · refine ⟨?_, fun h => absurd h.reads hr⟩
    intro frames h
    rcases h with ⟨x, chunk, r, hx, -⟩
    obtain ⟨e, he⟩ := input_error hr
    rw [he] at hx
    cases hx

/-- **The answer of a chunk call.** It returns exactly when nothing raises, and then it returns 20 frames for each tile of
the role. -/
theorem answer_cases {s : VfiSession V} (hM : M.Ok s.shmReader.geometry.frameShape vc vh vw) (hs : Wf s)
    (a : ChunkArgs V) :
    (Answers vc vh vw s a ∧
        ((VfiSession.interpolateChunk M a).run s).1 = .ok (20 * tiles (roleIn s a) s.runner.toLatents)) ∨
      (¬ Answers vc vh vw s a ∧ ∃ e, ((VfiSession.interpolateChunk M a).run s).1 = .error e) := by
  rcases chunk_cases hM hs a with ⟨hearly, e, he, -⟩ | ⟨hreads, hcommits, xt, -, -, ⟨hfail, e, he⟩ | ⟨hno, hok⟩⟩
  · exact Or.inr ⟨fun h => hearly ⟨h.1, h.2.1⟩, e, he⟩
  · exact Or.inr ⟨fun h => h.2.2 hfail, e, he⟩
  · exact Or.inl ⟨⟨hreads, hcommits, hno⟩, hok⟩

/-! ## Room in the output segment -/

/-- `write_tensor` raises for lack of space -/
def LacksSpace (out : Except PyErr ℕ) : Prop :=
  ∃ len total : ℕ, out = .error ⟨.valueError, s!"Shared memory buffer size ({len}) too small for payload ({total})"⟩

/-- the frames handed over are at most `max_output_frames`, and the write does not raise for lack of space -/
def FitsOutput (M : Precond V) (s : VfiSession V) (a : ChunkArgs V) : Prop :=
  ∀ frames, Handed M s a frames → frames.dim0 ≤ s.maxOutputFrames ∧
    ¬ LacksSpace ((writeTensor s.shmWriter.geometry frames).run s.shmWriter.buf).1

end Handed

theorem LacksSpace.head {out : Except PyErr ℕ} (h : LacksSpace out) :
    ∃ e, out = .error e ∧ e.msg.toList.head? = some 'S' := by
  rcases h with ⟨len, total, rfl⟩
  refine ⟨_, rfl, ?_⟩
  simp [ToString.toString]

/-- a write of frames there is room for raises for another reason, if it raises -/
theorem copyFrames_space {g : Geometry} {t h w c : ℕ} {x : Tensor UInt8} {buf : List UInt8}
    (hroom : t * g.frameBytes ≤ buf.length) : ¬ LacksSpace ((copyFrames g t h w c x).run buf).1 := by
  intro hl
  obtain ⟨e, he, hhead⟩ := hl.head
  unfold copyFrames at he
  -- the texts of the other errors start with other letters
  split_ifs at he
  · cases he
    simp [ToString.toString] at hhead
  · simp only [Py.run_bind_get, if_neg (Nat.not_lt.2 hroom)] at he
    split_ifs at he
    · cases he
      simp at hhead
    · cases he

theorem writeTensor_space {g : Geometry} {x : Tensor UInt8} {buf : List UInt8}
    (hroom : x.dim0 * g.frameBytes ≤ buf.length) : ¬ LacksSpace ((writeTensor g x).run buf).1 := by
  unfold writeTensor
  unfold Tensor.dim0 at hroom
  split
  · rename_i d0 d1 d2 d3 hshape
    rw [hshape] at hroom
    split_ifs
    · exact copyFrames_space hroom
    · exact copyFrames_space hroom
  · intro hl
    obtain ⟨e, he, hhead⟩ := hl.head
    cases he
    simp [ToString.toString] at hhead

theorem tiles_one_iff (r : Role) (l : Latents (Tile V)) : tiles r l = 1 ↔ r = .skip ∨ r = .concat := by
  cases r with
  | last =>
    simp only [tiles]
    split_ifs <;> simp
  | _ => simp [tiles]

theorem tiles_le (r : Role) (l : Latents (Tile V)) : tiles r l ≤ 3 := by
  cases r with
  | last =>
    simp only [tiles]
    split_ifs <;> omega
  | _ => simp [tiles]

section Claims

variable [Add V] [SMul ℚ V] {M : Precond V} {vc vh vw : ℕ}

/-- **Room, exactly.** In every state a session reaches, the frames of a chunk call fit the output segment exactly when
the scale factor is at least 2, or the role emits a single tile, or the call raises before the writer. -/
theorem output_fits_iff {g : Geometry} (hM : M.Ok g.frameShape vc vh vw) (id : String) (params : VfiParameters)
    (ops : List (SessionOp V)) (a : ChunkArgs V) :
    FitsOutput M (reached M id params g ops) a ↔
      2 ≤ temporalSf params ∨ roleIn (reached M id params g ops) a = .skip ∨
        roleIn (reached M id params g ops) a = .concat ∨ ¬ ReachesWriter (reached M id params g ops) a := by
  have hb := reached_built hM.toEncodes id params ops
  generalize reached M id params g ops = s at hb
  obtain ⟨hshape, hreach⟩ := handed_shape (hb.ok hM) hb.wf a
  have hone := tiles_one_iff (roleIn s a) s.runner.toLatents
  have hpos := tiles_pos (roleIn s a) s.runner.toLatents
  have hmax := hb.maxOutput
  refine ⟨?_, ?_⟩
  · intro h
    by_cases hr : ReachesWriter s a
    · obtain ⟨frames, hframes⟩ := hreach hr
      have hle := (h frames hframes).1
      rw [Tensor.dim0, (hshape frames hframes).2, List.headD_cons, hmax] at hle
      by_cases hsf : 2 ≤ temporalSf params
      · exact Or.inl hsf
      · rcases hone.1 (by omega) with hskip | hconcat
        · exact Or.inr (Or.inl hskip)
        · exact Or.inr (Or.inr (Or.inl hconcat))
    · exact Or.inr (Or.inr (Or.inr hr))
  · intro h frames hframes
    obtain ⟨hr, hsh⟩ := hshape frames hframes
    have hle : frames.dim0 ≤ s.maxOutputFrames := by
      rw [Tensor.dim0, hsh, List.headD_cons, hmax]
      have hsf := temporalSf_pos params
      have hthree := tiles_le (roleIn s a) s.runner.toLatents
      rcases h with h | h | h | h
      · omega
      · have := hone.2 (Or.inl h)
        omega
      · have := hone.2 (Or.inr h)
        omega
      · exact absurd hr h
    refine ⟨hle, writeTensor_space ?_⟩
    rw [hb.outputRoom, hb.writerGeometry]
    exact Nat.mul_le_mul_right _ hle

/-- T keyframes as the first chunk of a session of 32 by 32 frames get to the writer -/
theorem mock_reachesWriter {s : VfiSession Unit} {params : VfiParameters} {g : Geometry} (hs : Built params g s) {T : ℕ}
    (hT : 0 < T) (hT' : T ≤ 30) : ReachesWriter s ⟨0, T, false, quiet⟩ := by
  refine ⟨⟨rfl, Int.natCast_pos.2 hT, ?_⟩, ⟨denoises_quiet _, rfl⟩, rfl⟩
  rw [hs.inputRoom, hs.geometry]
  exact Nat.mul_le_mul_right _ (by simpa using hT')

/-- the first chunk of a session at scale factor 4 -/
theorem output_fits_mock : FitsOutput mockModel (reached mockModel "0123456789ab" ⟨4, 10⟩ rgb32 []) ⟨0, 1, false, quiet⟩ :=
  (output_fits_iff (g := rgb32) (mockModel_ok _) "0123456789ab" ⟨4, 10⟩ [] ⟨0, 1, false, quiet⟩).2 (Or.inl (by decide))

/-- **Too small a segment.** At scale factor 1 the segment has room for 30 frames, and the first chunk hands over 40. -/
theorem unit_scale_overflows :
    (reached mockModel "0123456789ab" ⟨1, 10⟩ rgb32 []).maxOutputFrames = 30 ∧
      ∃ frames, Handed mockModel (reached mockModel "0123456789ab" ⟨1, 10⟩ rgb32 []) ⟨0, 1, false, quiet⟩ frames ∧
        frames.dim0 = 40 := by
  have hb := reached_built (g := rgb32) (mockModel_ok _).toEncodes "0123456789ab" ⟨1, 10⟩ []
  obtain ⟨hshape, hreach⟩ := handed_shape (mockModel_ok _) hb.wf ⟨0, 1, false, quiet⟩
  obtain ⟨frames, hframes⟩ := hreach (mock_reachesWriter hb one_pos (by decide))
  refine ⟨rfl, frames, hframes, ?_⟩
  rw [Tensor.dim0, (hshape frames hframes).2]
  rfl

/-! ## The geometry of the writer -/

/-- the frames handed over have the geometry of the writer, and its checks take them wherever there is room for them -/
def Servable (M : Precond V) (s : VfiSession V) (a : ChunkArgs V) : Prop :=
  ∀ frames, Handed M s a frames →
    frames.shape = [frames.dim0, s.shmWriter.geometry.channels, s.shmWriter.geometry.height, s.shmWriter.geometry.width] ∧
    ∀ buf, frames.dim0 * s.shmWriter.geometry.frameBytes ≤ buf.length →
      ∃ n buf', (writeTensor s.shmWriter.geometry frames).run buf = (.ok n, buf')

/-- three-channel frames of the writer's height and width are taken unless they are three pixels wide and not three high
-/
theorem writable_rgb {g : Geometry} {len n : ℕ} (hn : 0 < n) (hroom : n * g.frameBytes ≤ len) :
    (3 = g.channels ∧ Writable g len [n, 3, g.height, g.width]) ↔ g.channels = 3 ∧ (g.width ≠ 3 ∨ g.height = 3) := by
  have hguess : GuessedChw 3 g.width ↔ g.width ≠ 3 := by
    unfold GuessedChw
    omega
  simp only [Writable, hguess]
  split_ifs with hw
  · refine ⟨fun h => ⟨h.1.symm, Or.inl hw⟩, fun h => ⟨h.1.symm, rfl, rfl, h.1.symm, hroom, hn⟩⟩
  · have hw' : g.width = 3 := not_not.1 hw
    refine ⟨?_, ?_⟩
    · intro h
      exact ⟨h.1.symm, Or.inr h.2.height.symm⟩
    · intro h
      have hh : g.height = 3 := h.2.resolve_left hw
      exact ⟨h.1.symm, by omega, by omega, by omega, hroom, hn⟩

/-- three-channel frames of the writer's height and width have its geometry and are taken wherever there is room for them
exactly when the writer has three channels and is not a narrow one -/
theorem taken_iff {g : Geometry} {frames : Tensor UInt8} {n : ℕ} (hn : 0 < n)
    (hshape : frames.shape = [n, 3, g.height, g.width]) :
    (frames.shape = [frames.dim0, g.channels, g.height, g.width] ∧
      ∀ buf, frames.dim0 * g.frameBytes ≤ buf.length → ∃ n buf', (writeTensor g frames).run buf = (.ok n, buf')) ↔
      g.channels = 3 ∧ (g.width ≠ 3 ∨ g.height = 3) := by
  have hdim : frames.dim0 = n := by
    rw [Tensor.dim0, hshape]
    rfl
  rw [hdim]
  refine ⟨?_, ?_⟩
  · intro h
    obtain ⟨hgeom, hwrite⟩ := h
    rw [hshape] at hgeom
    have hchannels : 3 = g.channels := by
      simp only [List.cons.injEq] at hgeom
      exact hgeom.2.1
    -- a buffer that has just the room
    set buf : List UInt8 := List.replicate (n * g.frameBytes) 0
    have hlen : buf.length = n * g.frameBytes := List.length_replicate
    have hwritable : Writable g buf.length frames.shape := by
      by_contra hno
      obtain ⟨e, he⟩ := writeTensor_error hno
      obtain ⟨n, buf', hok⟩ := hwrite buf hlen.ge
      rw [he] at hok
      cases hok
    rw [hshape] at hwritable
    exact (writable_rgb hn hlen.ge).1 ⟨hchannels, hwritable⟩
  · intro h
    refine ⟨by rw [hshape, h.1], ?_⟩
    intro buf hroom
    have hwritable := ((writable_rgb hn hroom).2 h).2
    rw [← hshape] at hwritable
    exact ⟨_, _, writeTensor_ok hwritable⟩

/-- the geometry of valid metadata, in terms of the metadata -/
theorem geometry_rgb {md : MediaMetadata} (hmd : md.Valid) :
    ((md.geometry hmd).channels = 3 ∧ ((md.geometry hmd).width ≠ 3 ∨ (md.geometry hmd).height = 3)) ↔
      (md.channels = 0 ∨ md.channels = 3) ∧ (md.width ≠ 3 ∨ md.height = 3) := by
  have hc : (md.geometry hmd).channels = md.effectiveChannels.toNat := rfl
  have hw : (md.geometry hmd).width = md.width.toNat := rfl
  have hh : (md.geometry hmd).height = md.height.toNat := rfl
  have hv := hmd
  unfold MediaMetadata.Valid at hv
  unfold MediaMetadata.effectiveChannels at hc
  split_ifs at hc <;> omega

/-- **Servable formats, exactly.** For a VAE that decodes to three channels and covers the frame: in every state a
session of valid metadata reaches, the writer takes what the runner hands over exactly when the metadata has three
channels and the frames are not three pixels wide, or are three high too, or the call raises before the writer. -/
theorem servable_iff {md : MediaMetadata} (hmd : md.Valid) {lh lw : ℕ}
    (hM : M.Ok (md.geometry hmd).frameShape 3 (8 * lh) (8 * lw)) (id : String) (params : VfiParameters)
    (hh : md.height ≤ 8 * lh) (hw : md.width ≤ 8 * lw) (ops : List (SessionOp V)) (a : ChunkArgs V) :
    Servable M (reached M id params (md.geometry hmd) ops) a ↔
      ((md.channels = 0 ∨ md.channels = 3) ∧ (md.width ≠ 3 ∨ md.height = 3)) ∨
        ¬ ReachesWriter (reached M id params (md.geometry hmd) ops) a := by
  have hb := reached_built hM.toEncodes id params ops
  generalize reached M id params (md.geometry hmd) ops = s at hb
  obtain ⟨hshape, hreach⟩ := handed_shape (hb.ok hM) hb.wf a
  have hgh : min (md.geometry hmd).height (8 * lh) = (md.geometry hmd).height := by
    have : (md.geometry hmd).height = md.height.toNat := rfl
    omega
  have hgw : min (md.geometry hmd).width (8 * lw) = (md.geometry hmd).width := by
    have : (md.geometry hmd).width = md.width.toNat := rfl
    omega
  rw [hb.geometry, hgh, hgw] at hshape
  have hpos : 0 < 20 * tiles (roleIn s a) s.runner.toLatents := Nat.mul_pos (by decide) (tiles_pos _ _)
  rw [← geometry_rgb hmd]
  unfold Servable
  rw [hb.writerGeometry]
  refine ⟨?_, ?_⟩
  · intro h
    by_cases hr : ReachesWriter s a
    · obtain ⟨frames, hframes⟩ := hreach hr
      exact Or.inl ((taken_iff hpos (hshape frames hframes).2).1 (h frames hframes))
    · exact Or.inr hr
  · intro h frames hframes
    obtain ⟨hr, hsh⟩ := hshape frames hframes
    exact (taken_iff hpos hsh).2 (h.resolve_right (not_not.2 hr))

/-- 32 by 32 frames of the given number of channels -/
def metadata32 (channels : ℤ) : MediaMetadata := ⟨32, 32, channels⟩

theorem servable_mock :
    Servable mockModel (reached mockModel "0123456789ab" ⟨4, 10⟩ ((metadata32 3).geometry (by decide)) [])
      ⟨0, 1, false, quiet⟩ :=
  (servable_iff (show (metadata32 3).Valid by decide) (mockModel_ok _) "0123456789ab" ⟨4, 10⟩
    (show (32 : ℤ) ≤ 8 * (4 : ℕ) by decide) (show (32 : ℤ) ≤ 8 * (4 : ℕ) by decide) [] ⟨0, 1, false, quiet⟩).2 (Or.inl (by decide))

/-- **An accepted format that is never served.** The metadata has four channels, and the runner hands over three. -/
theorem rgba_unservable :
    (metadata32 4).Valid ∧
      ¬ Servable mockModel (reached mockModel "0123456789ab" ⟨4, 10⟩ ((metadata32 4).geometry (by decide)) [])
        ⟨0, 1, false, quiet⟩ := by
  refine ⟨by decide, ?_⟩
  intro h
  have hb := reached_built (g := (metadata32 4).geometry (by decide)) (mockModel_ok _).toEncodes "0123456789ab" ⟨4, 10⟩ []
  obtain ⟨hshape, hreach⟩ := handed_shape (mockModel_ok _) hb.wf ⟨0, 1, false, quiet⟩
  obtain ⟨frames, hframes⟩ := hreach (mock_reachesWriter hb one_pos (by decide))
  have hgeom := (h frames hframes).1
  rw [(hshape frames hframes).2, hb.writerGeometry] at hgeom
  simp only [List.cons.injEq] at hgeom
  exact absurd hgeom.2.1 (by decide)

/-! ## The span of the keyframes -/

/-- **The answer and the span.** In every state a session reaches, a chunk call that returns reports 20 frames for each
tile of its role, whatever number of keyframes was staged; that is at most what the keyframes span exactly when they span
the tiles of the role, and so whenever they fill the window of 60 frames. -/
theorem answer_span {g : Geometry} (hM : M.Ok g.frameShape vc vh vw) (id : String) (params : VfiParameters)
    (ops : List (SessionOp V)) (a : ChunkArgs V) {n : ℕ}
    (h : ((VfiSession.interpolateChunk M a).run (reached M id params g ops)).1 = .ok n) :
    n = 20 * tiles (roleIn (reached M id params g ops) a) (reached M id params g ops).runner.toLatents ∧
      (n ≤ a.numInputFrames.toNat * temporalSf params ↔
        20 * tiles (roleIn (reached M id params g ops) a) (reached M id params g ops).runner.toLatents ≤
          a.numInputFrames.toNat * temporalSf params) ∧
      (60 ≤ a.numInputFrames.toNat * temporalSf params → n ≤ a.numInputFrames.toNat * temporalSf params) := by
  have hb := reached_built hM.toEncodes id params ops
  generalize reached M id params g ops = s at hb h
  rcases answer_cases (hb.ok hM) hb.wf a with ⟨-, hok⟩ | ⟨-, e, he⟩
  · have hn : n = 20 * tiles (roleIn s a) s.runner.toLatents := Except.ok.inj (h.symm.trans hok)
    have hthree := tiles_le (roleIn s a) s.runner.toLatents
    exact ⟨hn, by rw [hn], fun hspan => by omega⟩
  · rw [h] at he
    cases he

/-- T keyframes as the first chunk of the mock session are answered with 40 frames -/
theorem mock_answer {T : ℕ} (hT : 0 < T) (hT' : T ≤ 30) :
    ((VfiSession.interpolateChunk mockModel ⟨0, T, false, quiet⟩).run mockSession).1 = .ok 40 := by
  have hb : Built ⟨4, 10⟩ rgb32 mockSession := fresh_built _ _ _
  have hr := mock_reachesWriter hb hT hT'
  have hwrites : ¬ FailsLate 3 32 32 mockSession ⟨0, T, false, quiet⟩ := by
    intro h
    rcases h with h | h | h
    · exact h rfl
    · exact h rfl
    · refine h ((writable_rgb (g := rgb32) (n := 40) (by decide) ?_).2 ⟨rfl, by decide⟩).2
      rw [hb.outputRoom]
      exact Nat.mul_le_mul_right _ (by decide)
  rcases answer_cases (mockModel_ok _) hb.wf ⟨0, T, false, quiet⟩ with ⟨-, hok⟩ | ⟨hno, -⟩
  · exact hok
  · exact absurd ⟨hr.reads, hr.commits, hwrites⟩ hno

/-- fifteen keyframes at scale factor 4 fill the window, and are answered with 40 frames -/
theorem answer_span_full :
    40 = 20 * tiles (roleIn (reached mockModel "0123456789ab" ⟨4, 10⟩ rgb32 []) ⟨0, 15, false, quiet⟩)
        (reached mockModel "0123456789ab" ⟨4, 10⟩ rgb32 []).runner.toLatents ∧ 40 ≤ 15 * temporalSf ⟨4, 10⟩ := by
  have hanswer := answer_span (g := rgb32) (mockModel_ok _) "0123456789ab" ⟨4, 10⟩ [] ⟨0, 15, false, quiet⟩
    (mock_answer (T := 15) (by decide) (by decide))
  exact ⟨hanswer.1, hanswer.2.2 (by decide)⟩

/-- **Frames out of nothing.** One keyframe at scale factor 4 spans four frames, and the chunk is answered with 40. -/
theorem single_keyframe_overruns :
    ∃ n, ((VfiSession.interpolateChunk mockModel ⟨0, 1, false, quiet⟩).run
        (reached mockModel "0123456789ab" ⟨4, 10⟩ rgb32 [])).1 = .ok n ∧ 1 * temporalSf ⟨4, 10⟩ < n :=
  ⟨40, mock_answer (T := 1) (by decide) (by decide), by decide⟩

end Claims

end Viduce.Session
