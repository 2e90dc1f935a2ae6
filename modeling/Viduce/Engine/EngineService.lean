/-
The engine service (`engine_service_impl.cc`) and the socket of its session (`engine_session.cpp`), call by call. A call
of CreateSession destroys the session it finds, which removes its socket file, and starts a new one: unlink, open, bind,
listen, and then the socket thread. The destructor takes the socket thread for the sign that there is a file to remove.

- `start_outcome`: what starting a session leaves in the file system, by how far it came.
- `Tidy`: the only socket file of the service is that of its session.
- `follows_iff`: over every run, socket files follow sessions after each call exactly when no call binds its file and
  then fails to listen, and none succeeds on an abstract address.
- `failed_listen_leaves_file`: one such call.

Destroying a session waits for its client to disconnect; here it has. Other processes may put files anywhere, and remove
any, between the calls.
-/
import Mathlib.Tactic
import Viduce.Core.Absl
import Viduce.Core.Run

namespace Viduce.EngineService

open Viduce.Absl Viduce.Run

variable {ν : Type} [DecidableEq ν]

/-! ## The host -/

/-- what stands at a name of the file system -/
inductive Entry where
  /-- the socket file bound by session number n of the service -/
  | socket (session : ℕ)
  | other
deriving DecidableEq

abbrev Files (ν : Type) := ν → Option Entry

structure Host (ν : Type) where
  /-- the name a path stands for; a path through a missing directory stands for none -/
  resolve : String → Option ν
  /-- `absl::ErrnoToStatus`, of an error number other than 0 -/
  errnoToStatus : ℤ → String → Status
  enoent : ℤ
  eaddrinuse : ℤ

/-- `c_str()`, as a system call reads it -/
def cStr (path : String) : String := String.ofList (path.toList.takeWhile fun c => c.toNat ≠ 0)

/-- the file of a path; a path that begins with a null byte is an abstract address and has none -/
def Host.fileOf (host : Host ν) (path : String) : Option ν :=
  if cStr path = "" then none else host.resolve (cStr path)

/-- what a call meets -/
structure Conditions (ν : Type) where
  /-- what other processes have put at names (true) or removed (false) since the call before -/
  outside : ν → Option Bool
  /-- the names where the removal of what is no socket file is refused -/
  refused : ν → Bool
  openFails : Option ℤ
  bindFails : Option ℤ
  listenFails : Option ℤ

def Files.changed (files : Files ν) (outside : ν → Option Bool) : Files ν := fun f =>
  match outside f with
  | none => files f
  | some true => some .other
  | some false => none

/-! ## The session -/

structure EngineSession where
  /-- the number of the session in the service (bookkeeping) -/
  number : ℕ
  socketPath : String
  /-- `socket_thread_` is set -/
  socketThread : Bool
deriving DecidableEq

/-- sizeof(sockaddr_un::sun_path) - 1 -/
def kMaxSocketPathLen : ℕ := 107

section Calls

variable (host : Host ν) (c : Conditions ν)

/-- `::unlink` -/
def unlink (path : String) (files : Files ν) : Files ν :=
  match host.fileOf path with
  | none => files
  | some f => if files f = some .other ∧ c.refused f then files else Function.update files f none

/-- `acceptor_.bind`: the error code, and the files after it -/
def bind (session : EngineSession) (files : Files ν) : Option ℤ × Files ν :=
  match c.bindFails with
  | some ec => (some ec, files)
  | none =>
    if cStr session.socketPath = "" then (none, files)
    else
      match host.fileOf session.socketPath with
      | none => (some host.enoent, files)
      | some f =>
        if (files f).isSome then (some host.eaddrinuse, files)
        else (none, Function.update files f (some (.socket session.number)))

/-- `acceptor_.open`, and each of `bind` and `listen` if there is no error so far -/
def openBindListen (session : EngineSession) (files : Files ν) : Option ℤ × Files ν :=
  match c.openFails with
  | some ec => (some ec, files)
  | none =>
    match bind host c session files with
    | (some ec, files) => (some ec, files)
    | (none, files) => (c.listenFails, files)

/-- `Start` -/
def EngineSession.start (session : EngineSession) (files : Files ν) : Except Status EngineSession × Files ν :=
  if session.socketPath = "" then (.error ⟨.invalidArgument, "Socket path must not be empty"⟩, files)
  else if kMaxSocketPathLen < session.socketPath.utf8ByteSize then
    (.error ⟨.invalidArgument,
      s!"Socket path {session.socketPath} exceeds the maximum length of {kMaxSocketPathLen} bytes"⟩, files)
  else
    match openBindListen host c session (unlink host c session.socketPath files) with
    | (some ec, files) => (.error (host.errnoToStatus ec s!"Failed to listen on socket {session.socketPath}"), files)
    | (none, files) => (.ok { session with socketThread := true }, files)

/-- `~EngineSession`, the client having disconnected -/
def EngineSession.destroy (session : EngineSession) (files : Files ν) : Files ν :=
  if session.socketThread then unlink host c session.socketPath files else files

/-! ## The service -/

structure EngineServiceImpl (ν : Type) where
  /-- `engine_session_` -/
  engineSession : Option EngineSession
  files : Files ν
  /-- the number of sessions constructed so far (bookkeeping) -/
  constructed : ℕ

/-- `engine_session_.reset()` -/
def EngineServiceImpl.reset (s : EngineServiceImpl ν) : EngineServiceImpl ν :=
  match s.engineSession with
  | none => s
  | some session => { s with engineSession := none, files := session.destroy host c s.files }

/-- `CreateSession` -/
def EngineServiceImpl.createSession (socketPath : String) (s : EngineServiceImpl ν) :
    Except Status Unit × EngineServiceImpl ν :=
  if socketPath = "" then (.error ⟨.invalidArgument, "socket_path is required"⟩, s)
  else
    let s := s.reset host c
    let session : EngineSession := ⟨s.constructed, socketPath, false⟩
    match session.start host c s.files with
    | (.error status, files) =>
      (.error status, { s with files := session.destroy host c files, constructed := s.constructed + 1 })
    | (.ok session, files) =>
      (.ok (), { s with engineSession := some session, files := files, constructed := s.constructed + 1 })

end Calls

structure Call (ν : Type) where
  socketPath : String
  conditions : Conditions ν

/-- the state a call finds -/
def EngineServiceImpl.found (s : EngineServiceImpl ν) (call : Call ν) : EngineServiceImpl ν :=
  { s with files := s.files.changed call.conditions.outside }

def reply (host : Host ν) (s : EngineServiceImpl ν) (call : Call ν) : Except Status Unit × EngineServiceImpl ν :=
  (s.found call).createSession host call.conditions call.socketPath

def step (host : Host ν) (s : EngineServiceImpl ν) (call : Call ν) : EngineServiceImpl ν := (reply host s call).2

/-- a service that has not been called, on a host where other processes have files at these names -/
def EngineServiceImpl.init (occupied : ν → Bool) : EngineServiceImpl ν :=
  ⟨none, fun f => if occupied f then some .other else none, 0⟩

/-! ## What a call leaves in the file system -/

def NoSockets (files : Files ν) : Prop := ∀ f n, files f ≠ some (.socket n)

/-- the only socket files of the service are at the path of its session -/
def Tidy (host : Host ν) (s : EngineServiceImpl ν) : Prop :=
  ∀ f n, s.files f = some (.socket n) → ∃ session, s.engineSession = some session ∧ session.socketThread = true ∧
    host.fileOf session.socketPath = some f

/-- the file of the path may be made: what stands there can be unlinked -/
def Clear (host : Host ν) (c : Conditions ν) (path : String) (files : Files ν) : Prop :=
  ∃ f, host.fileOf path = some f ∧ (files f = some .other → c.refused f = false)

/-- `Start` gets past `bind` -/
def Binds (host : Host ν) (c : Conditions ν) (path : String) (files : Files ν) : Prop :=
  path.utf8ByteSize ≤ kMaxSocketPathLen ∧ c.openFails = none ∧ c.bindFails = none ∧
    (cStr path = "" ∨ Clear host c path files)

/-- the socket file of session `number` at the path, if that is no abstract address, is the only one of the service -/
def Bound (host : Host ν) (number : ℕ) (path : String) (files : Files ν) : Prop :=
  (cStr path = "" ∧ NoSockets files) ∨
    cStr path ≠ "" ∧ ∃ f, host.fileOf path = some f ∧ files f = some (.socket number) ∧
      ∀ f' n, files f' = some (.socket n) → f' = f ∧ n = number

section Outcomes

variable {host : Host ν} {c : Conditions ν} {files : Files ν}

omit [DecidableEq ν] in
theorem changed_socket {outside : ν → Option Bool} {f : ν} {n : ℕ}
    (h : files.changed outside f = some (.socket n)) : files f = some (.socket n) := by
  unfold Files.changed at h
  split at h
  · exact h
  · cases h
  · cases h

/-- an unlink brings no file -/
theorem unlink_le (host : Host ν) (c : Conditions ν) (files : Files ν) (path : String) (f : ν) :
    unlink host c path files f = files f ∨ unlink host c path files f = none := by
  unfold unlink
  cases host.fileOf path with
  | none => exact Or.inl rfl
  | some f₀ =>
    simp only
    split_ifs
    · exact Or.inl rfl
    · by_cases hf : f = f₀
      · exact Or.inr (by rw [hf, Function.update_self])
      · exact Or.inl (Function.update_of_ne hf _ _)

theorem NoSockets.unlink (h : NoSockets files) (path : String) : NoSockets (unlink host c path files) := by
  intro f n hf
  rcases unlink_le host c files path f with he | he
  · exact h f n (he.symm.trans hf)
  · cases he.symm.trans hf

/-- what is left at the path is what could not be removed -/
theorem unlink_self {path : String} {f : ν} (hf : host.fileOf path = some f) :
    unlink host c path files f = none ↔ (files f = some .other → c.refused f = false) := by
  unfold unlink
  rw [hf]
  simp only
  split_ifs with h
  · simp [h.1, h.2]
  · simp only [Function.update_self, true_iff]
    intro ho
    simpa [ho] using h

/-- removing another file, or the same, does not matter to it -/
theorem clear_unlink (path old : String) : Clear host c path (unlink host c old files) ↔ Clear host c path files := by
  refine exists_congr fun f => and_congr_right fun _ => ?_
  unfold unlink
  cases host.fileOf old with
  | none => rfl
  | some f₀ =>
    simp only
    split_ifs with h
    · rfl
    · by_cases hf : f = f₀
      · subst hf
        rw [Function.update_self]
        exact iff_of_true (fun ho => by cases ho) fun ho => by simpa [ho] using h
      · rw [Function.update_of_ne hf]

/-- **Destroying the session.** It leaves no socket file of the service. -/
theorem reset_noSockets {s : EngineServiceImpl ν} (hs : Tidy host s) : NoSockets (s.reset host c).files := by
  intro f n hf
  unfold EngineServiceImpl.reset at hf
  cases hx : s.engineSession with
  | none =>
    rw [hx] at hf
    obtain ⟨session, hsession, -⟩ := hs f n hf
    cases hx.symm.trans hsession
  | some session =>
    rw [hx] at hf
    simp only [EngineSession.destroy] at hf
    split_ifs at hf with hthread
    · have hf₀ : s.files f = some (.socket n) := by
        rcases unlink_le host c s.files session.socketPath f with he | he
        · exact he.symm.trans hf
        · cases he.symm.trans hf
      obtain ⟨x, hsession, -, hfile⟩ := hs f n hf₀
      obtain rfl : session = x := Option.some.inj (hx.symm.trans hsession)
      -- its file is a socket file, whose removal is not refused
      rw [(unlink_self hfile).2 fun ho => by cases hf₀.symm.trans ho] at hf
      cases hf
    · obtain ⟨x, hsession, hthread', -⟩ := hs f n hf
      obtain rfl : session = x := Option.some.inj (hx.symm.trans hsession)
      exact hthread hthread'

theorem reset_slot (host : Host ν) (c : Conditions ν) (s : EngineServiceImpl ν) :
    (s.reset host c).engineSession = none := by
  unfold EngineServiceImpl.reset
  split
  · assumption
  · rfl

theorem reset_constructed (s : EngineServiceImpl ν) : (s.reset host c).constructed = s.constructed := by
  unfold EngineServiceImpl.reset
  split <;> rfl

theorem clear_reset (path : String) (s : EngineServiceImpl ν) :
    Clear host c path (s.reset host c).files ↔ Clear host c path s.files := by
  unfold EngineServiceImpl.reset
  split
  · rfl
  · rw [EngineSession.destroy]
    split_ifs
    · exact clear_unlink path _
    · rfl

/-- **Binding.** It fails and leaves the files alone, or makes the file of the session if its path has one. -/
theorem bind_outcome (host : Host ν) (c : Conditions ν) (session : EngineSession) (h : NoSockets files) :
    (c.bindFails = none ∧ (cStr session.socketPath = "" ∨ Clear host c session.socketPath files) ∧
      ∃ files', bind host c session (unlink host c session.socketPath files) = (none, files') ∧
        Bound host session.number session.socketPath files') ∨
    (¬ (c.bindFails = none ∧ (cStr session.socketPath = "" ∨ Clear host c session.socketPath files)) ∧
      ∃ ec, bind host c session (unlink host c session.socketPath files) =
        (some ec, unlink host c session.socketPath files)) := by
  have hno : NoSockets (unlink host c session.socketPath files) := h.unlink session.socketPath
  unfold bind
  rcases hfault : c.bindFails with - | ec
  · by_cases habs : cStr session.socketPath = ""
    · rw [if_pos habs]
      exact Or.inl ⟨rfl, Or.inl habs, _, rfl, Or.inl ⟨habs, hno⟩⟩
    · rw [if_neg habs]
      cases hfile : host.fileOf session.socketPath with
      | none =>
        refine Or.inr ⟨?_, _, rfl⟩
        intro hb
        obtain ⟨f, hf, -⟩ := hb.2.resolve_left habs
        cases hfile.symm.trans hf
      | some f =>
        cases hfree : unlink host c session.socketPath files f with
        | none =>
          refine Or.inl ⟨rfl, Or.inr ⟨f, hfile, (unlink_self hfile).1 hfree⟩, _, by simp only [hfree]; rfl,
            Or.inr ⟨habs, f, hfile, ?_, ?_⟩⟩
          · exact Function.update_self ..
          · intro f' n hf'
            by_cases hne : f' = f
            · rw [hne, Function.update_self] at hf'
              exact ⟨hne, (Entry.socket.inj (Option.some.inj hf')).symm⟩
            · rw [Function.update_of_ne hne] at hf'
              exact absurd hf' (hno f' n)
        | some entry =>
          refine Or.inr ⟨?_, _, by simp only [hfree]; rfl⟩
          intro hb
          obtain ⟨f', hf', hclear⟩ := hb.2.resolve_left habs
          obtain rfl : f = f' := Option.some.inj (hfile.symm.trans hf')
          cases hfree.symm.trans ((unlink_self hfile).2 hclear)
  · exact Or.inr ⟨fun hb => (by cases hb.1), ec, rfl⟩

/-- **Starting.** Short of `bind` it fails and leaves no socket file; past it there is the file of the session, whether
`listen` fails or not. -/
theorem start_outcome (session : EngineSession) (hpath : session.socketPath ≠ "") (h : NoSockets files) :
    (¬ Binds host c session.socketPath files ∧
      ∃ status files', session.start host c files = (.error status, files') ∧ NoSockets files') ∨
    (Binds host c session.socketPath files ∧ ∃ files', Bound host session.number session.socketPath files' ∧
      ((∃ ec status, c.listenFails = some ec ∧ session.start host c files = (.error status, files')) ∨
        c.listenFails = none ∧ session.start host c files = (.ok { session with socketThread := true }, files'))) := by
  unfold EngineSession.start openBindListen
  rw [if_neg hpath]
  by_cases hlen : kMaxSocketPathLen < session.socketPath.utf8ByteSize
  · rw [if_pos hlen]
    exact Or.inl ⟨fun hb => absurd hb.1 (not_le.2 hlen), _, _, rfl, h⟩
  · rw [if_neg hlen]
    cases hopen : c.openFails with
    | some ec => exact Or.inl ⟨fun hb => (by cases hopen.symm.trans hb.2.1), _, _, rfl, h.unlink _⟩
    | none =>
      rcases bind_outcome host c session h with ⟨hb, hc, files', hbind, hbound⟩ | ⟨hb, ec, hbind⟩
      · simp only [hbind]
        refine Or.inr ⟨⟨not_lt.1 hlen, hopen, hb, hc⟩, files', hbound, ?_⟩
        cases hlisten : c.listenFails with
        | some ec => exact Or.inl ⟨ec, _, rfl, rfl⟩
        | none => exact Or.inr ⟨rfl, rfl⟩
      · simp only [hbind]
        exact Or.inl ⟨fun hbinds => hb hbinds.2.2, _, _, rfl, h.unlink _⟩

end Outcomes

/-! ## Runs -/

/-- what the call is to leave: on OK its session, with the socket file it made, and no other socket file of the service;
on an error past the check of the path, no session and no socket file -/
def Follows (host : Host ν) (s : EngineServiceImpl ν) (call : Call ν) : Prop :=
  match reply host s call with
  | (.ok (), s') => ∃ session, s'.engineSession = some session ∧ session.number = s.constructed ∧
      session.socketPath = call.socketPath ∧
      (∃ f, host.fileOf session.socketPath = some f ∧ s'.files f = some (.socket session.number)) ∧
      ∀ f n, s'.files f = some (.socket n) → n = session.number
  | (.error _, s') => call.socketPath ≠ "" → s'.engineSession = none ∧ NoSockets s'.files

/-- a call that binds a socket file and then fails to listen, or succeeds on an abstract address -/
def Strays (host : Host ν) (s : EngineServiceImpl ν) (call : Call ν) : Prop :=
  call.socketPath ≠ "" ∧ Binds host call.conditions call.socketPath (s.found call).files ∧
    (cStr call.socketPath = "" ↔ call.conditions.listenFails = none)

section Runs

variable {host : Host ν} {s : EngineServiceImpl ν} {call : Call ν}

omit [DecidableEq ν] in
theorem Tidy.found (hs : Tidy host s) (call : Call ν) : Tidy host (s.found call) :=
  fun f n hf => hs f n (changed_socket hf)

/-- **One call.** -/
theorem reply_outcome (hs : Tidy host s) (hpath : call.socketPath ≠ "") :
    (¬ Binds host call.conditions call.socketPath (s.found call).files ∧
      ∃ status s', reply host s call = (.error status, s') ∧ s'.engineSession = none ∧ NoSockets s'.files) ∨
    (Binds host call.conditions call.socketPath (s.found call).files ∧
      ∃ s', Bound host s.constructed call.socketPath s'.files ∧
        ((∃ ec status, call.conditions.listenFails = some ec ∧ reply host s call = (.error status, s') ∧
            s'.engineSession = none) ∨
          call.conditions.listenFails = none ∧ reply host s call = (.ok (), s') ∧
            s'.engineSession = some ⟨s.constructed, call.socketPath, true⟩)) := by
  have hno := reset_noSockets (c := call.conditions) (hs.found call)
  have hbinds : Binds host call.conditions call.socketPath ((s.found call).reset host call.conditions).files ↔
      Binds host call.conditions call.socketPath (s.found call).files := by
    unfold Binds
    rw [clear_reset]
  have hslot := reset_slot host call.conditions (s.found call)
  unfold reply EngineServiceImpl.createSession
  rw [if_neg hpath, ← hbinds]
  simp only [reset_constructed]
  rcases start_outcome ⟨s.constructed, call.socketPath, false⟩ hpath hno with
      ⟨hb, status, files', hstart, hno'⟩ | ⟨hb, files', hbound, ⟨ec, status, hec, hstart⟩ | ⟨hlisten, hstart⟩⟩
  · refine Or.inl ⟨hb, ?_⟩
    rw [show (s.found call).constructed = s.constructed from rfl, hstart]
    exact ⟨_, _, rfl, hslot, hno'⟩
  · refine Or.inr ⟨hb, ?_⟩
    rw [show (s.found call).constructed = s.constructed from rfl, hstart]
    exact ⟨_, hbound, Or.inl ⟨ec, _, hec, rfl, hslot⟩⟩
  · refine Or.inr ⟨hb, ?_⟩
    rw [show (s.found call).constructed = s.constructed from rfl, hstart]
    exact ⟨_, hbound, Or.inr ⟨hlisten, rfl, rfl⟩⟩

/-- a call that does not stray leaves the service tidy -/
theorem step_tidy (hs : Tidy host s) (h : ¬ Strays host s call) : Tidy host (step host s call) := by
  unfold step
  by_cases hpath : call.socketPath = ""
  · rw [reply, EngineServiceImpl.createSession, if_pos hpath]
    exact hs.found call
  · rcases reply_outcome hs hpath with ⟨-, status, s', hreply, -, hno⟩ | ⟨hb, s', hbound, hend⟩
    · rw [hreply]
      exact fun f n hf => absurd hf (hno f n)
    · have hstray : ¬ (cStr call.socketPath = "" ↔ call.conditions.listenFails = none) := fun hi => h ⟨hpath, hb, hi⟩
      rcases hend with ⟨ec, status, hec, hreply, -⟩ | ⟨hlisten, hreply, hslot⟩
      · rw [hreply]
        rcases hbound with ⟨-, hno⟩ | ⟨habs, -⟩
        · exact fun f n hf => absurd hf (hno f n)
        · exact absurd (iff_of_false habs (by simp [hec])) hstray
      · rw [hreply]
        rcases hbound with ⟨habs, -⟩ | ⟨-, f, hfile, -, honly⟩
        · exact absurd (iff_of_true habs hlisten) hstray
        · intro f' n hf'
          exact ⟨_, hslot, rfl, (honly f' n hf').1 ▸ hfile⟩

/-- **One call, exactly.** In a tidy service, socket files follow sessions across a call unless it strays. -/
theorem follows_step (hs : Tidy host s) : Follows host s call ↔ ¬ Strays host s call := by
  unfold Follows
  by_cases hpath : call.socketPath = ""
  · rw [reply, EngineServiceImpl.createSession, if_pos hpath]
    exact iff_of_true (fun hno => absurd hpath hno) fun hstray => hstray.1 hpath
  · rcases reply_outcome hs hpath with ⟨hb, status, s', hreply, hslot, hno⟩ | ⟨hb, s', hbound, hend⟩
    · rw [hreply]
      exact iff_of_true (fun _ => ⟨hslot, hno⟩) fun hstray => hb hstray.2.1
    · have hstray : Strays host s call ↔ (cStr call.socketPath = "" ↔ call.conditions.listenFails = none) :=
        ⟨fun h => h.2.2, fun h => ⟨hpath, hb, h⟩⟩
      rw [hstray]
      rcases hend with ⟨ec, status, hec, hreply, hslot⟩ | ⟨hlisten, hreply, hslot⟩
      · rw [hreply]
        rcases hbound with ⟨habs, hno⟩ | ⟨habs, f, -, hf, -⟩
        · exact iff_of_true (fun _ => ⟨hslot, hno⟩) fun hi => by cases hec.symm.trans (hi.1 habs)
        · exact iff_of_false (fun hall => (hall hpath).2 f _ hf) fun hi => hi (iff_of_false habs (by simp [hec]))
      · rw [hreply]
        rcases hbound with ⟨habs, hno⟩ | ⟨habs, f, hfile, hf, honly⟩
        · refine iff_of_false ?_ fun hi => hi (iff_of_true habs hlisten)
          intro hex
          obtain ⟨session, -, -, -, ⟨f, -, hf⟩, -⟩ := hex
          exact hno f _ hf
        · refine iff_of_true ?_ fun hi => habs (hi.2 hlisten)
          exact ⟨_, hslot, rfl, rfl, ⟨f, hfile, hf⟩, fun f' n hf' => (honly f' n hf').2⟩

end Runs

omit [DecidableEq ν] in
theorem tidy_init (host : Host ν) (occupied : ν → Bool) : Tidy host (EngineServiceImpl.init occupied) := by
  intro f n hf
  simp only [EngineServiceImpl.init] at hf
  split_ifs at hf
  cases hf

/-- **Socket files follow sessions, exactly.** From a service that has not been called, over every run of calls with any
paths and any failures: each call leaves what it is to leave precisely when no call binds a socket file and then fails
to listen, and none succeeds on an abstract address. -/
theorem follows_iff (host : Host ν) (occupied : ν → Bool) (calls : List (Call ν)) :
    Along (step host) (Follows host) (EngineServiceImpl.init occupied) calls ↔
      Along (step host) (fun s call => ¬ Strays host s call) (EngineServiceImpl.init occupied) calls := by
  apply along_iff_along (P := Tidy host)
  · exact fun s call hs h => step_tidy hs h
  · exact fun s call hs => follows_step hs
  · exact tidy_init host occupied

/-! ## A file left behind -/

/-- a host where every path names itself -/
def plainHost : Host String := ⟨some, fun _ message => ⟨.unknown, message⟩, 2, 98⟩

/-- a call in which `listen` fails -/
def unheard : Call String := ⟨"/tmp/engine.sock", fun _ => none, fun _ => false, none, none, some 98⟩

/-- nothing stands anywhere, and no call has been made -/
def idle : EngineServiceImpl String := EngineServiceImpl.init fun _ => false

theorem cStr_unheard : cStr unheard.socketPath = "/tmp/engine.sock" := by decide

theorem strays_unheard : Strays plainHost idle unheard := by
  refine ⟨by decide, ⟨by decide, rfl, rfl, Or.inr ⟨"/tmp/engine.sock", ?_, fun _ => rfl⟩⟩, ?_⟩
  · rw [Host.fileOf, cStr_unheard]
    rfl
  · rw [cStr_unheard]
    decide

/-- **A file left behind.** `listen` fails on the first call: there is no session, and a socket file stays. -/
theorem failed_listen_leaves_file :
    ¬ Along (step plainHost) (Follows plainHost) idle [unheard] ∧
      (step plainHost idle unheard).engineSession = none ∧
      (step plainHost idle unheard).files "/tmp/engine.sock" = some (.socket 0) := by
  have hstray := strays_unheard
  have hidle : Tidy plainHost idle := tidy_init plainHost _
  refine ⟨?_, ?_⟩
  · intro h
    exact (follows_step hidle).1 (h [] unheard [] rfl) hstray
  · rcases reply_outcome hidle hstray.1 with ⟨hb, -⟩ | ⟨-, s', hbound, ⟨ec, status, -, hreply, hslot⟩ | ⟨hlisten, -⟩⟩
    · exact absurd hstray.2.1 hb
    · rcases hbound with ⟨habs, -⟩ | ⟨-, f, hfile, hf, -⟩
      · rw [cStr_unheard] at habs
        exact absurd habs (by decide)
      · rw [Host.fileOf, cStr_unheard] at hfile
        obtain rfl : "/tmp/engine.sock" = f := Option.some.inj hfile
        rw [step, hreply]
        exact ⟨hslot, hf⟩
    · cases hlisten

end Viduce.EngineService
