/-
One interpolation session (`server/session.py`): the runner, the reader of the input segment and the writer of the
output segment.

- `init_cases`: a constructor whose arguments pass opens both segments, or raises; when the writer's segment cannot be
  opened the reader's stays linked.
- `chunk_cases`: what a chunk call does, from the spec lemmas of the reader, the runner and the writer.
- `Wf`: what holds of a session from its construction on.
-/
import Mathlib.Tactic
import Viduce.Daemon.ChunkStep
import Viduce.Daemon.Shm

namespace Viduce.Session

open Viduce.Chunks Viduce.SessionRunner Viduce.Shm

variable {V : Type}

/-- `MediaMetadata`; its pixel_format is stored and never read -/
structure MediaMetadata where
  width : ℤ
  height : ℤ
  channels : ℤ
deriving DecidableEq, Repr

structure VfiSession (V : Type) where
  sessionId : String
  maxInputFrames : ℕ
  maxOutputFrames : ℕ
  inputShmName : String
  outputShmName : String
  runner : SkipConcatSession V
  shmReader : ShmHandle
  shmWriter : ShmHandle

def inputName (sessionId : String) : String := "/viduce_" ++ sessionId ++ "_in"

def outputName (sessionId : String) : String := "/viduce_" ++ sessionId ++ "_out"

/-- what fails during one construction -/
structure SessionFaults where
  runner : Option PyErr
  reader : ShmFaults
  writer : ShmFaults

/-- `VfiSession.__init__`; a request always carries params, and max_input_frames is left at its default of 30 -/
def VfiSession.init (V : Type) (sessionId : String) (params : VfiParameters) (mediaMetadata : MediaMetadata)
    (faults : SessionFaults) : Py Os (VfiSession V) :=
  if sessionId = "" then Py.raise ⟨.valueError, "session_id is required"⟩
  else if mediaMetadata.width ≤ 0 ∨ mediaMetadata.height ≤ 0 then
    Py.raise ⟨.valueError, s!"media_metadata width ({mediaMetadata.width}) and height ({mediaMetadata.height}) " ++
      "must be positive"⟩
  else
    let channels := if mediaMetadata.channels > 0 then mediaMetadata.channels else 3
    if ¬ (channels = 1 ∨ channels = 3 ∨ channels = 4) then
      Py.raise ⟨.valueError, s!"media_metadata channels ({channels}) must be 1, 3, or 4"⟩
    else do
      let width := mediaMetadata.width
      let height := mediaMetadata.height
      let temporalSf := if params.temporalScaleFactor > 0 then params.temporalScaleFactor.toNat else 4
      let maxInputFrames := 30
      let maxOutputFrames := maxInputFrames * temporalSf
      let inputSize := maxInputFrames * width.toNat * height.toNat * channels.toNat
      let outputSize := maxOutputFrames * width.toNat * height.toNat * channels.toNat
      let runner ← Py.ofExcept <| match faults.runner with
        | some e => .error e
        | none => .ok (SkipConcatSession.init V params)
      let shmReader ← ShmReader.init (inputName sessionId) width height channels inputSize faults.reader
      let shmWriter ← ShmWriter.init (outputName sessionId) width height channels outputSize faults.writer
      return {
        sessionId := sessionId
        maxInputFrames := maxInputFrames
        maxOutputFrames := maxOutputFrames
        inputShmName := inputName sessionId
        outputShmName := outputName sessionId
        runner := runner
        shmReader := shmReader
        shmWriter := shmWriter }

/-- `VfiSession.close`: both names go; the mappings and the latents go with the object -/
def VfiSession.close (session : VfiSession V) : Py Os Unit := do
  session.shmReader.unlink
  session.shmWriter.unlink

/-- the arguments of `VfiSession.interpolate_chunk`, and what the outside world does during it -/
structure ChunkArgs (V : Type) where
  chunkIndex : ℕ
  numInputFrames : ℤ
  isLast : Bool
  env : Env V

section Chunk

variable [Add V] [SMul ℚ V]

/-- `VfiSession.interpolate_chunk`, less the time it reports -/
def VfiSession.interpolateChunk (M : Precond V) (a : ChunkArgs V) : Py (VfiSession V) ℕ := do
  let self ← Py.get
  let inputTensor ← Py.ofExcept do
    a.env.guard .readTensor ()
    readTensor self.shmReader.geometry a.numInputFrames self.shmReader.buf
  let chunk ← Py.zoom VfiSession.runner (fun r s => { s with runner := r })
    (SessionRunner.interpolateChunk M ⟨a.chunkIndex, inputTensor, a.isLast, a.env⟩)
  Py.ofExcept (a.env.guard .writeTensor ())
  Py.zoom (fun s => s.shmWriter.buf) (fun b s => { s with shmWriter := { s.shmWriter with buf := b } })
    (writeTensor self.shmWriter.geometry chunk.frames)

end Chunk

/-- the host engine stages bytes at the front of the input segment -/
def VfiSession.stage (bytes : List UInt8) (s : VfiSession V) : VfiSession V :=
  { s with shmReader := { s.shmReader with
      buf := bytes.take s.shmReader.buf.length ++ s.shmReader.buf.drop bytes.length } }

/-! ## Names -/

theorem inputName_inj {a b : String} (h : inputName a = inputName b) : a = b := by
  simpa [inputName] using h

/-- no input segment has an output segment's name: they end differently -/
theorem inputName_ne_outputName (a b : String) : inputName a ≠ outputName b := by
  intro h
  have hlast := congrArg (fun s : String => s.toList.reverse.head?) h
  simp [inputName, outputName] at hlast

/-- a segment is linked under the very name the session announces -/
theorem segmentName_input (id : String) : segmentName (inputName id) = inputName id := by
  apply String.ext
  simp [segmentName, posixName, lstripSlash, inputName]

theorem segmentName_output (id : String) : segmentName (outputName id) = outputName id := by
  apply String.ext
  simp [segmentName, posixName, lstripSlash, outputName]

/-! ## Construction -/

/-- the metadata `CreateSession` lets through -/
def MediaMetadata.Valid (md : MediaMetadata) : Prop :=
  0 < md.width ∧ 0 < md.height ∧ (md.channels = 0 ∨ md.channels = 1 ∨ md.channels = 3 ∨ md.channels = 4)

instance (md : MediaMetadata) : Decidable md.Valid := by unfold MediaMetadata.Valid; infer_instance

/-- `media_metadata.channels if media_metadata.channels > 0 else 3` -/
def MediaMetadata.effectiveChannels (md : MediaMetadata) : ℤ := if md.channels > 0 then md.channels else 3

theorem MediaMetadata.Valid.channels_ok {md : MediaMetadata} (h : md.Valid) :
    md.effectiveChannels = 1 ∨ md.effectiveChannels = 3 ∨ md.effectiveChannels = 4 := by
  unfold MediaMetadata.effectiveChannels
  have := h.2.2
  split_ifs <;> omega

/-- the geometry of valid metadata -/
def MediaMetadata.geometry (md : MediaMetadata) (h : md.Valid) : Geometry where
  width := md.width.toNat
  height := md.height.toNat
  channels := md.effectiveChannels.toNat
  width_pos := by have := h.1; omega
  height_pos := by have := h.2.1; omega
  channels_ok := by have := h.channels_ok; omega

theorem check_geometry {md : MediaMetadata} (h : md.Valid) :
    Geometry.check md.width md.height md.effectiveChannels = .ok (md.geometry h) := by
  have hd : ¬ (md.width ≤ 0 ∨ md.height ≤ 0) := by have := h.1; have := h.2.1; omega
  simp only [Geometry.check, dif_neg hd, dif_pos h.channels_ok]
  rfl

/-- the handles and the runner of a session just constructed -/
def VfiSession.fresh (V : Type) (id : String) (params : VfiParameters) (g : Geometry) : VfiSession V :=
  let temporalSf := if params.temporalScaleFactor > 0 then params.temporalScaleFactor.toNat else 4
  { sessionId := id
    maxInputFrames := 30
    maxOutputFrames := 30 * temporalSf
    inputShmName := inputName id
    outputShmName := outputName id
    runner := SkipConcatSession.init V params
    shmReader := ⟨inputName id, lstripSlash (inputName id), g, List.replicate (30 * g.frameBytes) 0⟩
    shmWriter := ⟨outputName id, lstripSlash (outputName id), g, List.replicate (30 * temporalSf * g.frameBytes) 0⟩ }

/-- both segments open -/
def Constructs (os : Os) (id : String) (faults : SessionFaults) : Prop :=
  faults.runner = none ∧ opens (os (inputName id)).isSome faults.reader = true ∧
    opens (os (outputName id)).isSome faults.writer = true

/-- the reader's segment opens and the writer's does not -/
def Leaks (os : Os) (id : String) (faults : SessionFaults) : Prop :=
  faults.runner = none ∧ opens (os (inputName id)).isSome faults.reader = true ∧
    opens (os (outputName id)).isSome faults.writer = false

/-- the system once both segments are the service's -/
def linkBoth (os : Os) (id : String) : Os :=
  Function.update (Function.update os (inputName id) (some .service)) (outputName id) (some .service)

/-- what a constructor that raised leaves of the system: nothing new, unless the reader's segment opened and the writer's
did not -/
structure LeftBy (os : Os) (id : String) (faults : SessionFaults) (os' : Os) : Prop where
  clean : ¬ Leaks os id faults → os' = os ∨ os' = Function.update os (inputName id) none
  leak : Leaks os id faults → os' = Function.update os (inputName id) (some .service) ∨
    os' = Function.update (Function.update os (inputName id) (some .service)) (outputName id) none

/-- none of the faults is a ValueError -/
structure SessionFaults.NoValueError (faults : SessionFaults) : Prop where
  runner : ∀ e, faults.runner = some e → e.kind ≠ .valueError
  reader : ∀ call e, faults.reader call = some e → e.kind ≠ .valueError
  writer : ∀ call e, faults.writer call = some e → e.kind ≠ .valueError

/-- the arguments pass the constructor's checks: what is left of it -/
theorem init_run {id : String} (hid : id ≠ "") (params : VfiParameters) {md : MediaMetadata} (hmd : md.Valid)
    (faults : SessionFaults) (os : Os) :
    (VfiSession.init V id params md faults).run os =
      match faults.runner with
      | some e => (.error e, os)
      | none => (do
          let shmReader ← ShmReader.init (inputName id) md.width md.height md.effectiveChannels
            (30 * (md.geometry hmd).frameBytes) faults.reader
          let shmWriter ← ShmWriter.init (outputName id) md.width md.height md.effectiveChannels
            (30 * (if params.temporalScaleFactor > 0 then params.temporalScaleFactor.toNat else 4) *
              (md.geometry hmd).frameBytes) faults.writer
          return { VfiSession.fresh V id params (md.geometry hmd) with
            shmReader := shmReader, shmWriter := shmWriter } : Py Os (VfiSession V)).run os := by
  have hd : ¬ (md.width ≤ 0 ∨ md.height ≤ 0) := by have := hmd.1; have := hmd.2.1; omega
  have hch := hmd.channels_ok
  unfold MediaMetadata.effectiveChannels at hch
  simp only [VfiSession.init, if_neg hid, if_neg hd, if_neg (not_not.2 hch)]
  cases faults.runner with
  | some e => rfl
  | none =>
    simp only [Geometry.frameBytes, MediaMetadata.geometry, MediaMetadata.effectiveChannels, ← Nat.mul_assoc]
    rfl

theorem frameBytes_room (g : Geometry) {n : ℕ} (hn : 0 < n) : 0 < n * g.frameBytes := Nat.mul_pos hn g.frameBytes_pos

/-- **Constructing a session.** It opens both segments, or raises before it has linked one, or opens the reader's alone
and raises; what it raises is no ValueError unless a fault is. -/
theorem init_cases {id : String} (hid : id ≠ "") (params : VfiParameters) {md : MediaMetadata} (hmd : md.Valid)
    (faults : SessionFaults) (os : Os) :
    (Constructs os id faults ∧ (VfiSession.init V id params md faults).run os =
      (.ok (VfiSession.fresh V id params (md.geometry hmd)), linkBoth os id)) ∨
    (¬ Constructs os id faults ∧ ∃ e os', (VfiSession.init V id params md faults).run os = (.error e, os') ∧
      (faults.NoValueError → e.kind ≠ .valueError) ∧ LeftBy os id faults os') := by
  have hsf : 0 < 30 * (if params.temporalScaleFactor > 0 then params.temporalScaleFactor.toNat else 4) := by
    split_ifs <;> omega
  have hother : Function.update os (inputName id) (some Owner.service) (outputName id) = os (outputName id) :=
    Function.update_of_ne (inputName_ne_outputName id id).symm _ _
  rw [init_run hid params hmd]
  cases hr : faults.runner with
  | some e =>
    have hno : ∀ b, ¬ (faults.runner = none ∧ b) := fun b h => by rw [hr] at h; cases h.1
    exact Or.inr ⟨hno _, e, os, rfl, fun h => h.runner e hr, ⟨fun _ => Or.inl rfl, fun h => absurd h (hno _)⟩⟩
  | none =>
    simp only [ShmReader.init, ShmWriter.init]
    rcases ShmHandle.init_cases (check_geometry hmd) (inputName id)
      (frameBytes_room (md.geometry hmd) (by decide : 0 < 30)) faults.reader os with
        ⟨ho, hrun⟩ | ⟨ho, e, os', hrun, hos, hk⟩
    · rw [segmentName_input] at ho hrun
      rw [Py.run_bind_ok hrun]
      rcases ShmHandle.init_cases (check_geometry hmd) (outputName id)
        (frameBytes_room (md.geometry hmd) hsf) faults.writer (Function.update os (inputName id) (some .service)) with
          ⟨ho', hrun'⟩ | ⟨ho', e, os', hrun', hos', hk'⟩
      · rw [segmentName_output, hother] at ho'
        rw [segmentName_output] at hrun'
        rw [Py.run_bind_ok hrun']
        exact Or.inl ⟨⟨hr, ho, ho'⟩, rfl⟩
      · rw [segmentName_output, hother] at ho'
        rw [segmentName_output] at hos'
        rw [Py.run_bind_error hrun']
        refine Or.inr ⟨fun h => ?_, e, os', rfl, fun h => hk' h.writer, ⟨fun h => absurd ⟨hr, ho, ho'⟩ h, fun _ => hos'⟩⟩
        exact absurd (h.2.2.symm.trans ho') (by decide)
    · rw [segmentName_input] at ho hos
      rw [Py.run_bind_error hrun]
      have hno : ∀ b, ¬ (faults.runner = none ∧ opens (os (inputName id)).isSome faults.reader = true ∧ b) :=
        fun b h => absurd (h.2.1.symm.trans ho) (by decide)
      exact Or.inr ⟨hno _, e, os', rfl, fun h => hk h.reader, ⟨fun _ => hos, fun h => absurd h (hno _)⟩⟩

/-! ## One chunk -/

/-- `read_tensor` returns: no fault, a positive count, and room for it in the segment -/
structure Reads (s : VfiSession V) (a : ChunkArgs V) : Prop where
  fault : a.env.fault .readTensor = none
  pos : 0 < a.numInputFrames
  room : a.numInputFrames.toNat * s.shmReader.geometry.frameBytes ≤ s.shmReader.buf.length

/-- what the reader hands to the runner -/
def VfiSession.input (s : VfiSession V) (a : ChunkArgs V) : Except PyErr (Tensor UInt8) := do
  a.env.guard .readTensor ()
  readTensor s.shmReader.geometry a.numInputFrames s.shmReader.buf

theorem input_ok {s : VfiSession V} {a : ChunkArgs V} (h : Reads s a) :
    ∃ x, s.input a = .ok x ∧ x.shape = a.numInputFrames.toNat :: s.shmReader.geometry.frameShape ∧
      0 < a.numInputFrames.toNat := by
  have hpos := h.pos
  rw [VfiSession.input, guard_ok h.fault, ok_bind, readTensor_ok h.pos h.room]
  exact ⟨_, rfl, (permute_chw rfl).1, by omega⟩

theorem input_error {s : VfiSession V} {a : ChunkArgs V} (h : ¬ Reads s a) : ∃ e, s.input a = .error e := by
  unfold VfiSession.input
  cases hf : a.env.fault .readTensor with
  | some e => exact ⟨e, by rw [guard_error hf]; rfl⟩
  | none =>
    rw [guard_ok hf, ok_bind]
    exact readTensor_error fun hr => h ⟨hf, hr.1, hr.2⟩

section Call

variable [Add V] [SMul ℚ V]

/-- a chunk call is the read, then the runner, then the write -/
theorem interpolateChunk_run (M : Precond V) (a : ChunkArgs V) (s : VfiSession V) :
    (VfiSession.interpolateChunk M a).run s =
      match s.input a with
      | .error e => (.error e, s)
      | .ok x =>
        let r := (SessionRunner.interpolateChunk M ⟨a.chunkIndex, x, a.isLast, a.env⟩).run s.runner
        match r.1 with
        | .error e => (.error e, { s with runner := r.2 })
        | .ok chunk =>
          match a.env.fault .writeTensor with
          | some e => (.error e, { s with runner := r.2 })
          | none =>
            let w := (writeTensor s.shmWriter.geometry chunk.frames).run s.shmWriter.buf
            (w.1, { s with runner := r.2, shmWriter := { s.shmWriter with buf := w.2 } }) := by
  have hinput : (do
      a.env.guard .readTensor ()
      readTensor s.shmReader.geometry a.numInputFrames s.shmReader.buf) = s.input a := rfl
  rw [VfiSession.interpolateChunk, Py.run_bind_get, hinput, Py.run_bind_ofExcept]
  cases s.input a with
  | error e => rfl
  | ok x =>
    simp only
    rw [Py.run_bind, Py.run_zoom]
    cases hr : (SessionRunner.interpolateChunk M ⟨a.chunkIndex, x, a.isLast, a.env⟩).run s.runner with
    | mk out r =>
      cases out with
      | error e => rfl
      | ok chunk =>
        simp only
        rw [Py.run_bind_ofExcept, Env.guard]
        cases a.env.fault .writeTensor <;> rfl

/-- a chunk call leaves all but the runner and the bytes of the output segment as they were -/
theorem chunk_frame (M : Precond V) (a : ChunkArgs V) (s : VfiSession V) :
    ∃ r b, ((VfiSession.interpolateChunk M a).run s).2 =
      { s with runner := r, shmWriter := { s.shmWriter with buf := b } } := by
  rw [interpolateChunk_run]
  cases s.input a with
  | error e => exact ⟨s.runner, s.shmWriter.buf, rfl⟩
  | ok x =>
    simp only
    cases ((SessionRunner.interpolateChunk M ⟨a.chunkIndex, x, a.isLast, a.env⟩).run s.runner).1 with
    | error e => exact ⟨_, s.shmWriter.buf, rfl⟩
    | ok chunk => cases a.env.fault .writeTensor with
      | some e => exact ⟨_, s.shmWriter.buf, rfl⟩
      | none => exact ⟨_, _, rfl⟩

end Call

/-- what holds of a session from its construction on -/
structure Wf (s : VfiSession V) : Prop where
  runner : SessionRunner.Wf s.runner
  geometry : s.shmWriter.geometry = s.shmReader.geometry

theorem fresh_wf (id : String) (params : VfiParameters) (g : Geometry) : Wf (VfiSession.fresh V id params g) :=
  ⟨wf_init params, rfl⟩

theorem stage_wf {s : VfiSession V} (h : Wf s) (bytes : List UInt8) : Wf (s.stage bytes) := ⟨h.runner, h.geometry⟩

/-- the role of a chunk call -/
def roleIn (s : VfiSession V) (a : ChunkArgs V) : Role := dispatch s.runner.toLatents a.chunkIndex a.isLast

/-- the runner gets past its denoising -/
def CommitsIn (s : VfiSession V) (a : ChunkArgs V) : Prop :=
  a.env.Denoises s.runner.numSteps ∧ admitted (roleIn s a) s.runner.toLatents = true

/-- the VAE or the writer raises, or the writer refuses the frames of the role; the VAE decodes to `vc` channels of `vh`
by `vw` -/
def FailsLate (vc vh vw : ℕ) (s : VfiSession V) (a : ChunkArgs V) : Prop :=
  a.env.fault .vaeDecode ≠ none ∨ a.env.fault .writeTensor ≠ none ∨
    ¬ Writable s.shmReader.geometry s.shmWriter.buf.length
      [20 * tiles (roleIn s a) s.runner.toLatents, vc, min s.shmReader.geometry.height vh,
        min s.shmReader.geometry.width vw]

section Spec

variable [Add V] [SMul ℚ V]

/-- the write of a chunk's frames -/
theorem write_cases {M : Precond V} {s : VfiSession V} {a : ChunkArgs V} {x : Tensor UInt8} {chunk : Chunk V}
    {r : SkipConcatSession V} (hin : s.input a = .ok x)
    (hrun : (SessionRunner.interpolateChunk M ⟨a.chunkIndex, x, a.isLast, a.env⟩).run s.runner = (.ok chunk, r)) :
    ((VfiSession.interpolateChunk M a).run s).2.runner = r ∧
    ((a.env.fault .writeTensor = none ∧ Writable s.shmWriter.geometry s.shmWriter.buf.length chunk.frames.shape ∧
        ((VfiSession.interpolateChunk M a).run s).1 = .ok chunk.frames.dim0) ∨
      ((a.env.fault .writeTensor ≠ none ∨
          ¬ Writable s.shmWriter.geometry s.shmWriter.buf.length chunk.frames.shape) ∧
        ∃ e, ((VfiSession.interpolateChunk M a).run s).1 = .error e)) := by
  rw [interpolateChunk_run, hin]
  simp only [hrun]
  cases hf : a.env.fault .writeTensor with
  | some e => exact ⟨rfl, Or.inr ⟨Or.inl (by simp), e, rfl⟩⟩
  | none =>
    simp only
    by_cases hw : Writable s.shmWriter.geometry s.shmWriter.buf.length chunk.frames.shape
    · rw [writeTensor_ok hw]
      exact ⟨trivial, Or.inl ⟨trivial, hw, rfl⟩⟩
    · obtain ⟨e, he⟩ := writeTensor_error hw
      rw [he]
      exact ⟨trivial, Or.inr ⟨Or.inr hw, e, rfl⟩⟩

/-- **What a chunk call does to the latents.** If the read fails or the runner does not get past its denoising, the call
raises and the latents are as they were. Otherwise the role has committed its latents, and the call raises exactly when
it fails late. -/
theorem chunk_cases {M : Precond V} {s : VfiSession V} {vc vh vw : ℕ} (hM : M.Ok s.shmReader.geometry.frameShape vc vh vw)
    (hs : Wf s) (a : ChunkArgs V) :
    (¬ (Reads s a ∧ CommitsIn s a) ∧ ∃ e, ((VfiSession.interpolateChunk M a).run s).1 = .error e ∧
      ((VfiSession.interpolateChunk M a).run s).2.runner.toLatents = s.runner.toLatents) ∨
    (Reads s a ∧ CommitsIn s a ∧ ∃ xt, xt.length = tiles (roleIn s a) s.runner.toLatents ∧
      ((VfiSession.interpolateChunk M a).run s).2.runner.toLatents =
        commit 1 (roleIn s a) s.runner.toLatents (tag s.runner.calls xt) ∧
      ((FailsLate vc vh vw s a ∧ ∃ e, ((VfiSession.interpolateChunk M a).run s).1 = .error e) ∨
        (¬ FailsLate vc vh vw s a ∧
          ((VfiSession.interpolateChunk M a).run s).1 = .ok (20 * tiles (roleIn s a) s.runner.toLatents)))) := by
  by_cases hr : Reads s a
  · obtain ⟨x, hx, hshape, hpos⟩ := input_ok hr
    rcases step_cases hM.toEncodes hs.runner (c := ⟨a.chunkIndex, x, a.isLast, a.env⟩) hshape hpos with
        ⟨hc, g, -, hg, htail, hrun⟩ | ⟨hc, e, hrun⟩
    · refine Or.inr ⟨hr, hc, g.xt, hg.xt, ?_⟩
      by_cases hv : a.env.fault .vaeDecode = none
      · obtain ⟨f, hf, hshape⟩ := decode_shape hM hg htail (tiles_pos _ _) hv
        rw [hf] at hrun
        rcases write_cases hx hrun with ⟨hrunner, ⟨hwf, hw, hok⟩ | ⟨hfail, e, he⟩⟩
        · refine ⟨by rw [hrunner]; rfl, Or.inr ⟨?_, ?_⟩⟩
          · rw [hs.geometry, hshape] at hw
            exact fun h => h.elim (fun h => h hv) fun h => h.elim (fun h => h hwf) fun h => h hw
          · rw [hok, Tensor.dim0, hshape]
            rfl
        · refine ⟨by rw [hrunner]; rfl, Or.inl ⟨?_, e, he⟩⟩
          rw [hs.geometry, hshape] at hfail
          exact Or.inr hfail
      · have hdec : ∀ f, g.decode M a.env ≠ .ok f := fun f hf => hv (decode_fault hf)
        cases hd : g.decode M a.env with
        | ok f => exact absurd hd (hdec f)
        | error e =>
          rw [hd] at hrun
          rw [interpolateChunk_run, hx]
          simp only
          rw [hrun]
          exact ⟨rfl, Or.inl ⟨Or.inl hv, e, rfl⟩⟩
    · refine Or.inl ⟨fun h => hc h.2, e, ?_⟩
      rw [interpolateChunk_run, hx]
      simp only
      rw [hrun]
      exact ⟨rfl, rfl⟩
  · obtain ⟨e, he⟩ := input_error hr
    refine Or.inl ⟨fun h => hr h.1, e, ?_⟩
    rw [interpolateChunk_run, he]
    exact ⟨rfl, rfl⟩

end Spec

end Viduce.Session
