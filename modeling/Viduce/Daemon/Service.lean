/-
The gRPC servicer (`server/service.py`): one slot for the active session, three calls and a reset. Each body runs under
the service lock, so a call is one step; `context.abort` raises out of the body, so a call ends in a status or a response
and keeps what it had done to the service.

- `createSession_outcome`, `interpolateChunk_outcome`, `destroySession_outcome`, `reset_run`: all that each call can do, with
  its answer and what it leaves.
- `step`: the calls as the operations of one machine, with the host that stages frames.

The clearing of the CUDA cache is left out; logging too.
-/
import Mathlib.Tactic
import Viduce.Core.Run
import Viduce.Daemon.Session

namespace Viduce.Service

open Viduce.SessionRunner Viduce.Shm Viduce.Session

variable {V : Type}

/-! ## The servicer -/

inductive StatusCode where
  | invalidArgument
  | notFound
  | resourceExhausted
  | internal
deriving DecidableEq, Repr

/-- what `context.abort` ends a call with -/
structure Status where
  code : StatusCode
  details : String
deriving DecidableEq, Repr

/-- `LdfVfiService`: the active session, and the segments of the system it runs on -/
structure LdfVfiService (V : Type) where
  activeSession : Option (VfiSession V)
  os : Os

/-- a service that has not been called -/
def LdfVfiService.init (V : Type) : LdfVfiService V := ⟨none, fun _ => none⟩

/-- `uuid.uuid4().hex[:12]` -/
def SessionId : Type := {id : String // id.length = 12}

theorem SessionId.ne_empty (id : SessionId) : id.val ≠ "" := by
  intro h
  have hlen := id.property
  rw [h] at hlen
  exact absurd hlen (by decide)

/-- `CreateSessionRequest` -/
structure CreateSessionRequest where
  mediaMetadata : Option MediaMetadata
  params : VfiParameters

/-- `InterpolateChunkRequest`, and what the outside world does during the call -/
structure InterpolateChunkRequest (V : Type) where
  sessionId : String
  chunkIndex : ℕ
  numInputFrames : ℤ
  isLastChunk : Bool
  env : Env V

/-- `InterpolateChunkResponse`, less the time -/
structure InterpolateChunkResponse where
  chunkIndex : ℕ
  numOutputFrames : ℕ
deriving DecidableEq, Repr

/-- how a call ends: in a status or a response -/
abbrev Reply (α : Type) : Type := Except Status α

/-- code on the system's segments -/
def onOs {α : Type} (x : Py Os α) : Py (LdfVfiService V) α :=
  Py.zoom LdfVfiService.os (fun os s => { s with os := os }) x

/-- `reset`: whatever `close` does, the slot is empty afterwards -/
def LdfVfiService.reset : Py (LdfVfiService V) Unit := do
  let self ← Py.get
  match self.activeSession with
  | none => return ()
  | some session =>
    Py.tryExcept (onOs session.close) fun _ => return ()
    Py.modify fun s => { s with activeSession := none }

/-- Python's `n or default` on a number -/
def pyOr (n default : ℤ) : ℤ := if n = 0 then default else n

/-- the `try` block of `CreateSession` and its handlers -/
def LdfVfiService.construct (params : VfiParameters) (metadata : MediaMetadata) (sessionId : SessionId)
    (faults : SessionFaults) : Py (LdfVfiService V) (Reply String) := do
  let made ← Py.attempt (onOs (VfiSession.init V sessionId.val params metadata faults))
  match made with
  | .ok session =>
    Py.modify fun s => { s with activeSession := some session }
    return .ok sessionId.val
  | .error e =>
    LdfVfiService.reset
    if e.kind = .valueError then return .error ⟨.invalidArgument, e.msg⟩
    else return .error ⟨.internal, s!"Failed to create session: {e.msg}"⟩

/-- `CreateSession`; the session id and the faults are the outside world's -/
def LdfVfiService.createSession (request : CreateSessionRequest) (sessionId : SessionId) (faults : SessionFaults) :
    Py (LdfVfiService V) (Reply String) :=
  match request.mediaMetadata with
  | none => return .error ⟨.invalidArgument, "media_metadata must be provided in CreateSessionRequest"⟩
  | some metadata =>
    if metadata.width ≤ 0 ∨ metadata.height ≤ 0 then
      return .error ⟨.invalidArgument, s!"width ({metadata.width}) and height ({metadata.height}) must be positive"⟩
    else
      let channels := pyOr metadata.channels 3
      if ¬ (channels = 1 ∨ channels = 3 ∨ channels = 4) then
        return .error ⟨.invalidArgument, s!"channels ({channels}) must be 1, 3, or 4"⟩
      else do
        let self ← Py.get
        -- a previous session is preempted
        if self.activeSession.isSome then LdfVfiService.reset
        LdfVfiService.construct request.params metadata sessionId faults

section Chunk

variable [Add V] [SMul ℚ V]

/-- `InterpolateChunk` -/
def LdfVfiService.interpolateChunk (M : Precond V) (request : InterpolateChunkRequest V) :
    Py (LdfVfiService V) (Reply InterpolateChunkResponse) := do
  let self ← Py.get
  match self.activeSession with
  | none => return .error ⟨.notFound, s!"Session '{request.sessionId}' not found"⟩
  | some session =>
    if session.sessionId ≠ request.sessionId then
      return .error ⟨.notFound, s!"Session '{request.sessionId}' not found"⟩
    else if request.numInputFrames ≤ 0 then
      return .error ⟨.invalidArgument, s!"num_input_frames must be positive, got {request.numInputFrames}"⟩
    else do
      let done ← Py.attempt (Py.zoom (fun _ => session) (fun x s => { s with activeSession := some x })
        (VfiSession.interpolateChunk M
          ⟨request.chunkIndex, request.numInputFrames, request.isLastChunk, request.env⟩))
      match done with
      | .ok numOutputFrames => return .ok ⟨request.chunkIndex, numOutputFrames⟩
      | .error e =>
        if e.kind = .outOfMemoryError then return .error ⟨.resourceExhausted, s!"CUDA OOM: {e.msg}"⟩
        else return .error ⟨.internal, s!"Inference failed: {e.msg}"⟩

end Chunk

/-- `DestroySession` -/
def LdfVfiService.destroySession (sessionId : String) : Py (LdfVfiService V) (Reply Unit) := do
  let self ← Py.get
  match self.activeSession with
  | none => return .error ⟨.notFound, s!"Session '{sessionId}' not found"⟩
  | some session =>
    if session.sessionId ≠ sessionId then return .error ⟨.notFound, s!"Session '{sessionId}' not found"⟩
    else do
      LdfVfiService.reset
      return .ok ()

/-! ## What the calls do -/

/-- the handles of a session have the names that go with its id -/
structure NamedSession (x : VfiSession V) : Prop where
  input : posixName x.shmReader.cleanName = inputName x.sessionId
  output : posixName x.shmWriter.cleanName = outputName x.sessionId

/-- the active session's handles have the names that go with its id -/
def Named (s : LdfVfiService V) : Prop := ∀ x, s.activeSession = some x → NamedSession x

theorem fresh_named (id : String) (params : VfiParameters) (g : Geometry) :
    NamedSession (VfiSession.fresh V id params g) := ⟨segmentName_input id, segmentName_output id⟩

theorem named_init (V : Type) : Named (LdfVfiService.init V) := fun x h => by cases h

theorem named_none (os : Os) : Named (⟨none, os⟩ : LdfVfiService V) := fun x h => by cases h

/-- the system once the active session's names are unlinked -/
def LdfVfiService.clearedOs (s : LdfVfiService V) : Os :=
  match s.activeSession with
  | none => s.os
  | some x => Function.update (Function.update s.os (inputName x.sessionId) none) (outputName x.sessionId) none

/-- a reset unlinks the active session's segments and empties the slot -/
theorem reset_run {s : LdfVfiService V} (hs : Named s) : LdfVfiService.reset.run s = (.ok (), ⟨none, s.clearedOs⟩) := by
  rw [LdfVfiService.reset, Py.run_bind_get, LdfVfiService.clearedOs]
  cases hx : s.activeSession with
  | none =>
    cases s
    cases hx
    rfl
  | some x =>
    have hclose : x.close.run s.os = (.ok (), Function.update (Function.update s.os (inputName x.sessionId) none)
        (outputName x.sessionId) none) := by
      rw [VfiSession.close, Py.run_bind_ok (x.shmReader.unlink_run s.os), ShmHandle.unlink_run, (hs x hx).input,
        (hs x hx).output]
    have htry : (Py.tryExcept (onOs x.close) fun _ => pure ()).run s =
        (.ok (), { s with os := (x.close.run s.os).2 }) := by
      rw [Py.run_tryExcept, onOs, Py.run_zoom, hclose]
    simp only
    rw [Py.run_bind_ok htry, hclose]
    rfl

/-- the request passes the checks in front of the lock -/
def CreateSessionRequest.Valid (request : CreateSessionRequest) : Prop :=
  ∃ metadata, request.mediaMetadata = some metadata ∧ metadata.Valid

/-- the checks in front of the lock, on metadata -/
theorem valid_iff (md : MediaMetadata) :
    md.Valid ↔ ¬ (md.width ≤ 0 ∨ md.height ≤ 0) ∧
      (pyOr md.channels 3 = 1 ∨ pyOr md.channels 3 = 3 ∨ pyOr md.channels 3 = 4) := by
  unfold MediaMetadata.Valid pyOr
  split_ifs <;> omega

/-- a request that fails the checks ends in INVALID_ARGUMENT and changes nothing -/
theorem createSession_invalid {request : CreateSessionRequest} (h : ¬ request.Valid) (id : SessionId)
    (faults : SessionFaults) (s : LdfVfiService V) :
    ∃ msg, (LdfVfiService.createSession request id faults).run s = (.ok (.error ⟨.invalidArgument, msg⟩), s) := by
  unfold LdfVfiService.createSession
  cases hmd : request.mediaMetadata with
  | none => exact ⟨_, rfl⟩
  | some md =>
    have hv := (valid_iff md).not.1 fun hv => h ⟨md, hmd, hv⟩
    simp only
    by_cases hdim : md.width ≤ 0 ∨ md.height ≤ 0
    · rw [if_pos hdim]
      exact ⟨_, rfl⟩
    · rw [if_neg hdim, if_pos fun hch => hv ⟨hdim, hch⟩]
      exact ⟨_, rfl⟩

/-- on an empty slot, what `VfiSession` raises decides the status, and the slot stays empty -/
theorem construct_run (params : VfiParameters) (md : MediaMetadata) (id : SessionId) (faults : SessionFaults) (os : Os) :
    (LdfVfiService.construct params md id faults).run (⟨none, os⟩ : LdfVfiService V) =
      match (VfiSession.init V id.val params md faults).run os with
      | (.ok session, os') => (.ok (.ok id.val), ⟨some session, os'⟩)
      | (.error e, os') =>
        (.ok (.error (if e.kind = .valueError then ⟨.invalidArgument, e.msg⟩
          else ⟨.internal, s!"Failed to create session: {e.msg}"⟩)), ⟨none, os'⟩) := by
  rw [LdfVfiService.construct, Py.run_bind_attempt, onOs, Py.run_zoom]
  cases (VfiSession.init V id.val params md faults).run os with
  | mk out os' =>
    cases out with
    | ok session => rfl
    | error e =>
      have hreset : (LdfVfiService.reset : Py (LdfVfiService V) Unit).run ⟨none, os'⟩ = (.ok (), ⟨none, os'⟩) := rfl
      simp only
      rw [Py.run_bind_ok hreset]
      split_ifs <;> rfl

/-- a request that passes: the active session goes, then the new one is constructed -/
theorem createSession_valid {request : CreateSessionRequest} {md : MediaMetadata}
    (hmd : request.mediaMetadata = some md) (hv : md.Valid) (id : SessionId) (faults : SessionFaults)
    {s : LdfVfiService V} (hs : Named s) :
    (LdfVfiService.createSession request id faults).run s =
      (LdfVfiService.construct request.params md id faults).run ⟨none, s.clearedOs⟩ := by
  obtain ⟨hdim, hch⟩ := (valid_iff md).1 hv
  unfold LdfVfiService.createSession
  rw [hmd]
  simp only
  rw [if_neg hdim, if_neg (not_not.2 hch), Py.run_bind_get]
  split_ifs with hactive
  · rw [Py.run_bind_ok (reset_run hs)]
  · have hnone : s.activeSession = none := by simpa using hactive
    rw [LdfVfiService.clearedOs, hnone]
    cases s
    cases hnone
    rfl

/-- **All that a CreateSession can do.** It is refused and changes nothing; or the active session goes and the new one takes
its place; or the active session goes, the slot stays empty, and the reader's segment stays linked if it was opened. -/
theorem createSession_outcome (request : CreateSessionRequest) (id : SessionId) (faults : SessionFaults)
    {s : LdfVfiService V} (hs : Named s) :
    (¬ request.Valid ∧
      ∃ msg, (LdfVfiService.createSession request id faults).run s = (.ok (.error ⟨.invalidArgument, msg⟩), s)) ∨
    (request.Valid ∧ Constructs s.clearedOs id.val faults ∧
      ∃ g, (LdfVfiService.createSession request id faults).run s =
        (.ok (.ok id.val), ⟨some (VfiSession.fresh V id.val request.params g), linkBoth s.clearedOs id.val⟩)) ∨
    (request.Valid ∧ ¬ Constructs s.clearedOs id.val faults ∧
      ∃ status os', (LdfVfiService.createSession request id faults).run s = (.ok (.error status), ⟨none, os'⟩) ∧
        (faults.NoValueError → status.code = .internal) ∧ LeftBy s.clearedOs id.val faults os') := by
  by_cases hv : request.Valid
  · obtain ⟨md, hmd, hmdv⟩ := hv
    rw [createSession_valid hmd hmdv id faults hs, construct_run]
    rcases init_cases (V := V) id.ne_empty request.params hmdv faults s.clearedOs with
        ⟨hc, hrun⟩ | ⟨hc, e, os', hrun, hk, hleft⟩
    · rw [hrun]
      exact Or.inr (Or.inl ⟨⟨md, hmd, hmdv⟩, hc, _, rfl⟩)
    · rw [hrun]
      refine Or.inr (Or.inr ⟨⟨md, hmd, hmdv⟩, hc, _, os', rfl, ?_, hleft⟩)
      intro h
      rw [if_neg (hk h)]
  · exact Or.inl ⟨hv, createSession_invalid hv id faults s⟩

/-- the session check of `InterpolateChunk` and `DestroySession` -/
def Accepts (s : LdfVfiService V) (id : String) : Prop := ∃ x, s.activeSession = some x ∧ x.sessionId = id

/-- **All that a DestroySession can do.** Under another id it is refused and changes nothing; otherwise the session goes. -/
theorem destroySession_outcome (id : String) {s : LdfVfiService V} (hs : Named s) :
    (¬ Accepts s id ∧ ∃ msg, (LdfVfiService.destroySession id).run s = (.ok (.error ⟨.notFound, msg⟩), s)) ∨
      (Accepts s id ∧ (LdfVfiService.destroySession id).run s = (.ok (.ok ()), ⟨none, s.clearedOs⟩)) := by
  rw [LdfVfiService.destroySession, Py.run_bind_get]
  cases hx : s.activeSession with
  | none =>
    refine Or.inl ⟨?_, _, rfl⟩
    intro h
    rcases h with ⟨x, hx', -⟩
    rw [hx] at hx'
    cases hx'
  | some x =>
    simp only
    by_cases hid : x.sessionId = id
    · rw [if_neg (not_not.2 hid), Py.run_bind_ok (reset_run hs)]
      exact Or.inr ⟨⟨x, hx, hid⟩, rfl⟩
    · rw [if_pos hid]
      refine Or.inl ⟨?_, _, rfl⟩
      intro h
      rcases h with ⟨y, hy, hid'⟩
      rw [hx] at hy
      cases hy
      exact hid hid'

section Chunk

variable [Add V] [SMul ℚ V]

/-- **All that an InterpolateChunk can do.** Under another id, or without frames, it is refused and changes nothing;
otherwise the session runs the chunk, and nothing else of the service moves. -/
theorem interpolateChunk_outcome (M : Precond V) (request : InterpolateChunkRequest V) (s : LdfVfiService V) :
    (¬ Accepts s request.sessionId ∧
      ∃ msg, (LdfVfiService.interpolateChunk M request).run s = (.ok (.error ⟨.notFound, msg⟩), s)) ∨
    (Accepts s request.sessionId ∧
      ∃ msg, (LdfVfiService.interpolateChunk M request).run s = (.ok (.error ⟨.invalidArgument, msg⟩), s)) ∨
    (Accepts s request.sessionId ∧ ∃ x r b reply, s.activeSession = some x ∧
      (LdfVfiService.interpolateChunk M request).run s =
        (.ok reply, ⟨some { x with runner := r, shmWriter := { x.shmWriter with buf := b } }, s.os⟩) ∧
      ∀ status, reply = .error status → status.code = .resourceExhausted ∨ status.code = .internal) := by
  rw [LdfVfiService.interpolateChunk, Py.run_bind_get]
  cases hx : s.activeSession with
  | none =>
    refine Or.inl ⟨?_, _, rfl⟩
    intro h
    rcases h with ⟨x, hx', -⟩
    rw [hx] at hx'
    cases hx'
  | some x =>
    simp only
    by_cases hid : x.sessionId = request.sessionId
    · have ha : Accepts s request.sessionId := ⟨x, hx, hid⟩
      rw [if_neg (not_not.2 hid)]
      by_cases hn : request.numInputFrames ≤ 0
      · rw [if_pos hn]
        exact Or.inr (Or.inl ⟨ha, _, rfl⟩)
      · obtain ⟨r, b, hframe⟩ := chunk_frame M
          ⟨request.chunkIndex, request.numInputFrames, request.isLastChunk, request.env⟩ x
        rw [if_neg hn, Py.run_bind_attempt, Py.run_zoom, hframe]
        refine Or.inr (Or.inr ⟨ha, x, r, b, ?_⟩)
        cases ((VfiSession.interpolateChunk M
          ⟨request.chunkIndex, request.numInputFrames, request.isLastChunk, request.env⟩).run x).1 with
        | ok n => exact ⟨_, rfl, rfl, fun status h => by cases h⟩
        | error e =>
          simp only
          split_ifs
          · exact ⟨_, trivial, rfl, fun status h => Or.inl (by cases h; rfl)⟩
          · exact ⟨_, trivial, rfl, fun status h => Or.inr (by cases h; rfl)⟩
    · rw [if_pos hid]
      refine Or.inl ⟨?_, _, rfl⟩
      intro h
      rcases h with ⟨y, hy, hid'⟩
      rw [hx] at hy
      cases hy
      exact hid hid'

end Chunk

/-! ## The machine -/

/-- a call, the reset of the server, the host staging frames, another process linking or unlinking a name -/
inductive Op (V : Type) where
  | createSession (request : CreateSessionRequest) (sessionId : SessionId) (faults : SessionFaults)
  | interpolateChunk (request : InterpolateChunkRequest V)
  | destroySession (sessionId : String)
  | reset
  | stage (bytes : List UInt8)
  | other (name : String) (link : Bool)

/-- others leave the service's segments alone -/
def otherProcess (name : String) (link : Bool) (os : Os) : Os :=
  if os name = some .service then os else Function.update os name (if link then some .other else none)

section Step

variable [Add V] [SMul ℚ V]

def step (M : Precond V) (s : LdfVfiService V) : Op V → LdfVfiService V
  | .createSession request id faults => ((LdfVfiService.createSession request id faults).run s).2
  | .interpolateChunk request => ((LdfVfiService.interpolateChunk M request).run s).2
  | .destroySession id => ((LdfVfiService.destroySession id).run s).2
  | .reset => (LdfVfiService.reset.run s).2
  | .stage bytes => { s with activeSession := s.activeSession.map (VfiSession.stage bytes) }
  | .other name link => { s with os := otherProcess name link s.os }

/-- every operation keeps the handles' names -/
theorem step_named (M : Precond V) (s : LdfVfiService V) (o : Op V) (hs : Named s) : Named (step M s o) := by
  cases o with
  | createSession request id faults =>
    rw [step]
    rcases createSession_outcome request id faults hs with ⟨-, msg, h⟩ | ⟨-, -, g, h⟩ | ⟨-, -, st, os', h, -⟩
    · rwa [h]
    · rw [h]
      intro x hx
      cases hx
      exact fresh_named _ _ _
    · rw [h]
      exact named_none os'
  | interpolateChunk request =>
    rw [step]
    rcases interpolateChunk_outcome M request s with ⟨-, msg, h⟩ | ⟨-, msg, h⟩ | ⟨-, x, r, b, reply, hx, h, -⟩
    · rwa [h]
    · rwa [h]
    · rw [h]
      intro y hy
      cases hy
      exact ⟨(hs x hx).input, (hs x hx).output⟩
  | destroySession id =>
    rw [step]
    rcases destroySession_outcome id hs with ⟨-, msg, h⟩ | ⟨-, h⟩
    · rwa [h]
    · rw [h]
      exact named_none _
  | reset =>
    rw [step, reset_run hs]
    exact named_none _
  | stage bytes =>
    intro y hy
    obtain ⟨x, hx, rfl⟩ := Option.map_eq_some_iff.1 hy
    exact ⟨(hs x hx).input, (hs x hx).output⟩
  | other name link => exact hs

end Step

/-! ## A request -/

/-- 32 by 32 RGB frames, as in the test suite -/
def request32 : CreateSessionRequest := ⟨some ⟨32, 32, 3⟩, ⟨4, 2⟩⟩

theorem request32_valid : request32.Valid := ⟨⟨32, 32, 3⟩, rfl, by decide⟩

def someId : SessionId := ⟨"0123456789ab", by decide⟩

/-- nothing fails -/
def SessionFaults.none : SessionFaults := ⟨.none, fun _ => .none, fun _ => .none⟩

end Viduce.Service
