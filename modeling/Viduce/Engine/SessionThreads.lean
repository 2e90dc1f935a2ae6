/-
The threads of the engine server around one session. Handlers of CreateSession take the mutex, destroy the session they
find, and start a new one; destroying a session joins its socket thread, which accepts one connection and reads it to
its end. At shutdown the main thread waits for the handlers and then destroys the service. Clients connect, send and
close as they like.

- `Inv`: what holds in every interleaving; the mutex belongs to the one handler that is past it.
- `blocked_iff`: while a session is being destroyed, its thread is blocked in accept or in a read exactly when no step
  of the server is enabled.
- `stuck_only_on_absent_client`: the server is stuck in no interleaving where each session's client has connected and
  closed its connection before the session begins to be destroyed, as the session expects of it.
- `absent_client_sticks`: it is stuck when no client has connected.

A step that is not enabled leaves the state as it is. An error of `accept` itself ends the process, and is left out.
-/
import Mathlib.Tactic
import Viduce.Core.Run
import Viduce.Engine.Ingest

namespace Viduce.SessionThreads

open Viduce.Run Viduce.Ingest

/-! ## Model -/

/-- a connection: the bytes sent and not yet read, and whether the client keeps it open -/
structure Connection where
  unread : List UInt8
  isOpen : Bool
deriving DecidableEq

inductive SocketThread where
  /-- in `acceptor_.accept` -/
  | accepting
  /-- in `ReadFrame`, with so much of the frame read -/
  | reading (connection : ℕ) (buffer : List UInt8)
  | ended
deriving DecidableEq

structure EngineSession where
  /-- the connections that have not been accepted, in the order they were made -/
  backlog : List ℕ
  thread : SocketThread
deriving DecidableEq

/-- where a handler of CreateSession is -/
inductive Handler where
  /-- at the lock of `mutex_` -/
  | waiting
  | locked
  /-- in `engine_session_.reset()`, at the join -/
  | joining
  | starting
  | done
deriving DecidableEq

/-- where the main thread is -/
inductive Main where
  /-- in `WaitForShutdownSignal` -/
  | serving
  /-- in `server->Shutdown()`, which waits for the handlers -/
  | shuttingDown
  /-- in the destructor of the service, at the join -/
  | destroying
  | stopped
deriving DecidableEq

structure St where
  main : Main
  handlers : List Handler
  /-- the handler that holds `mutex_` -/
  mutex : Option ℕ
  /-- the session of `engine_session_`, or the one being destroyed -/
  session : Option EngineSession
  connections : List Connection
deriving DecidableEq

inductive Op where
  -- from outside
  | rpc (emptyPath : Bool)
  | signal
  | connect
  | send (connection : ℕ) (bytes : List UInt8)
  | close (connection : ℕ)
  -- a handler
  | lock (h : ℕ)
  | reset (h : ℕ)
  | joined (h : ℕ)
  | start (h : ℕ) (ok : Bool)
  -- the socket thread
  | accept
  | read (n : ℕ)
  | endOfStream
  -- the main thread
  | waited
  | destroyed

def Op.serverSide : Op → Bool
  | .rpc _ | .signal | .connect | .send _ _ | .close _ => false
  | _ => true

def init : St := ⟨.serving, [], none, none, []⟩

/-- the bytes that the read of `ReadFrame` in progress still lacks: of the header, or of the payload it announces -/
def missing (buffer : List UInt8) : ℕ :=
  if buffer.length < headerSize then headerSize - buffer.length
  else headerSize + (FrameHeader.ofBytes (buffer.take headerSize)).payloadLen.toNat - buffer.length

/-- the frame after so many bytes; a whole one is handed over, and the next begins -/
def nextBuffer (buffer : List UInt8) : List UInt8 := if missing buffer = 0 then [] else buffer

/-- the socket thread has returned -/
def St.threadEnded (s : St) : Bool := s.session.any fun x => x.thread = .ended

def step (s : St) : Op → Option St
  | .rpc emptyPath =>
    if s.main = .serving then some { s with handlers := s.handlers ++ [if emptyPath then .done else .waiting] } else none
  | .signal => if s.main = .serving then some { s with main := .shuttingDown } else none
  | .connect =>
    s.session.map fun x =>
      { s with
        session := some { x with backlog := x.backlog ++ [s.connections.length] }
        connections := s.connections ++ [⟨[], true⟩] }
  | .send k bytes =>
    match s.connections[k]? with
    | some ⟨unread, true⟩ => some { s with connections := s.connections.set k ⟨unread ++ bytes, true⟩ }
    | _ => none
  | .close k =>
    match s.connections[k]? with
    | some ⟨unread, true⟩ => some { s with connections := s.connections.set k ⟨unread, false⟩ }
    | _ => none
  | .lock h =>
    if s.handlers[h]? = some .waiting ∧ s.mutex = none then
      some { s with mutex := some h, handlers := s.handlers.set h .locked }
    else none
  | .reset h =>
    if s.handlers[h]? = some .locked then
      some { s with handlers := s.handlers.set h (if s.session.isSome then .joining else .starting) }
    else none
  | .joined h =>
    if s.handlers[h]? = some .joining ∧ s.threadEnded then
      some { s with session := none, handlers := s.handlers.set h .starting }
    else none
  | .start h ok =>
    if s.handlers[h]? = some .starting then
      some { s with
        session := if ok then some ⟨[], .accepting⟩ else none
        mutex := none
        handlers := s.handlers.set h .done }
    else none
  | .accept =>
    match s.session with
    | some ⟨k :: backlog, .accepting⟩ => some { s with session := some ⟨backlog, .reading k []⟩ }
    | _ => none
  | .read n =>
    match s.session with
    | some ⟨backlog, .reading k buffer⟩ =>
      match s.connections[k]? with
      | some ⟨unread, isOpen⟩ =>
        -- a read takes at least a byte, and no more than it lacks
        if 0 < n ∧ n ≤ missing buffer ∧ n ≤ unread.length then
          some { s with
            session := some ⟨backlog, .reading k (nextBuffer (buffer ++ unread.take n))⟩
            connections := s.connections.set k ⟨unread.drop n, isOpen⟩ }
        else none
      | none => none
    | _ => none
  | .endOfStream =>
    match s.session with
    | some ⟨backlog, .reading k _⟩ =>
      if s.connections[k]? = some ⟨[], false⟩ then some { s with session := some ⟨backlog, .ended⟩ } else none
    | _ => none
  | .waited =>
    if s.main = .shuttingDown ∧ ∀ h ∈ s.handlers, h = .done then
      some { s with main := if s.session.isSome then .destroying else .stopped }
    else none
  | .destroyed =>
    if s.main = .destroying ∧ s.threadEnded then some { s with main := .stopped, session := none } else none

/-- takes the step if it is enabled -/
def act (s : St) (o : Op) : St := (step s o).getD s

/-! ## Stuck states -/

/-- a handler, or the destructor of the service, waits in the join of a session -/
def Destroying (s : St) : Prop := .joining ∈ s.handlers ∨ s.main = .destroying

/-- the socket thread is blocked in accept, or in a read on a connection that the client keeps open -/
def Blocked (s : St) : Prop :=
  match s.session with
  | some ⟨backlog, .accepting⟩ => backlog = []
  | some ⟨_, .reading k _⟩ => s.connections[k]? = some ⟨[], true⟩
  | _ => False

/-- connection k has been closed by its client -/
def Closed (connections : List Connection) (k : ℕ) : Prop := ∃ unread, connections[k]? = some ⟨unread, false⟩

/-- the connection of the session, the first that was made, has been closed by its client -/
def Released (s : St) : Prop :=
  match s.session with
  | some ⟨backlog, .accepting⟩ => ∃ k, backlog.head? = some k ∧ Closed s.connections k
  | some ⟨_, .reading k _⟩ => Closed s.connections k
  | _ => True

/-- the step begins to destroy the session there is -/
def Begins (s : St) : Op → Prop
  | .reset h => s.handlers[h]? = some .locked
  | .waited => s.main = .shuttingDown ∧ ∀ h ∈ s.handlers, h = .done
  | _ => False

/-- the client is as the session expects it: its connection is closed before the session begins to be destroyed -/
def Expected (s : St) (o : Op) : Prop := Begins s o → Released s

/-! ## The invariant -/

/-- the handler holds the mutex -/
def Handler.holds : Handler → Bool
  | .locked | .joining | .starting => true
  | .waiting | .done => false

/-- the handlers, the mutex and the main thread -/
structure Ordered (s : St) : Prop where
  owner : ∀ h x, s.handlers[h]? = some x → x.holds = true → s.mutex = some h
  finished : s.main = .destroying ∨ s.main = .stopped → ∀ x ∈ s.handlers, x = .done
  session : Destroying s → s.session.isSome

/-- the session and its connections -/
structure Wired (s : St) : Prop where
  backlog : ∀ x, s.session = some x → ∀ k ∈ x.backlog, k < s.connections.length
  reading : ∀ x k buffer, s.session = some x → x.thread = .reading k buffer → k < s.connections.length ∧ 0 < missing buffer

structure Inv (s : St) : Prop where
  ordered : Ordered s
  wired : Wired s

theorem missing_nextBuffer (buffer : List UInt8) : 0 < missing (nextBuffer buffer) := by
  unfold nextBuffer
  split_ifs with h
  · decide
  · exact Nat.pos_of_ne_zero h

/-- steps of the clients and of the socket thread -/
def Op.onSocket : Op → Bool
  | .connect | .send _ _ | .close _ | .accept | .read _ | .endOfStream => true
  | _ => false

/-- what a step on the socket does, and when -/
inductive SocketStep (s : St) : Op → St → Prop where
  | connect {x : EngineSession} (hx : s.session = some x) :
      SocketStep s .connect { s with
        session := some { x with backlog := x.backlog ++ [s.connections.length] }
        connections := s.connections ++ [⟨[], true⟩] }
  | send {k : ℕ} {bytes unread : List UInt8} (hk : s.connections[k]? = some ⟨unread, true⟩) :
      SocketStep s (.send k bytes) { s with connections := s.connections.set k ⟨unread ++ bytes, true⟩ }
  | close {k : ℕ} {unread : List UInt8} (hk : s.connections[k]? = some ⟨unread, true⟩) :
      SocketStep s (.close k) { s with connections := s.connections.set k ⟨unread, false⟩ }
  | accept {k : ℕ} {backlog : List ℕ} (hx : s.session = some ⟨k :: backlog, .accepting⟩) :
      SocketStep s .accept { s with session := some ⟨backlog, .reading k []⟩ }
  | read {n k : ℕ} {backlog : List ℕ} {buffer unread : List UInt8} {isOpen : Bool}
      (hx : s.session = some ⟨backlog, .reading k buffer⟩) (hk : s.connections[k]? = some ⟨unread, isOpen⟩)
      (hn : 0 < n ∧ n ≤ missing buffer ∧ n ≤ unread.length) :
      SocketStep s (.read n) { s with
        session := some ⟨backlog, .reading k (nextBuffer (buffer ++ unread.take n))⟩
        connections := s.connections.set k ⟨unread.drop n, isOpen⟩ }
  | endOfStream {k : ℕ} {backlog : List ℕ} {buffer : List UInt8} (hx : s.session = some ⟨backlog, .reading k buffer⟩)
      (hk : s.connections[k]? = some ⟨[], false⟩) :
      SocketStep s .endOfStream { s with session := some ⟨backlog, .ended⟩ }

theorem socketStep_of_step {s s' : St} {o : Op} (ho : o.onSocket = true) (h : step s o = some s') : SocketStep s o s' := by
  cases o with
  | connect =>
    obtain ⟨x, hx, rfl⟩ := Option.map_eq_some_iff.1 h
    exact .connect hx
  | send k bytes =>
    simp only [step] at h
    split at h
    · rename_i hk
      cases h
      exact .send hk
    · cases h
  | close k =>
    simp only [step] at h
    split at h
    · rename_i hk
      cases h
      exact .close hk
    · cases h
  | accept =>
    simp only [step] at h
    split at h
    · rename_i hx
      cases h
      exact .accept hx
    · cases h
  | read n =>
    simp only [step] at h
    split at h
    · rename_i hx
      split at h
      · rename_i hk
        obtain ⟨hn, h⟩ := Option.ite_none_right_eq_some.1 h
        cases h
        exact .read hx hk hn
      · cases h
    · cases h
  | endOfStream =>
    simp only [step] at h
    split at h
    · rename_i hx
      obtain ⟨hk, h⟩ := Option.ite_none_right_eq_some.1 h
      cases h
      exact .endOfStream hx hk
    · cases h
  | _ => cases ho

/-- on the socket, the handlers, the mutex and the main thread stay as they are -/
theorem step_onSocket {s s' : St} {o : Op} (ho : o.onSocket = true) (h : step s o = some s') :
    s'.main = s.main ∧ s'.handlers = s.handlers ∧ s'.mutex = s.mutex ∧ s'.session.isSome = s.session.isSome := by
  cases socketStep_of_step ho h with
  | send _ | close _ => exact ⟨rfl, rfl, rfl, rfl⟩
  | connect hx | accept hx | read hx _ _ | endOfStream hx _ => exact ⟨rfl, rfl, rfl, by rw [hx]; rfl⟩

/-- off the socket, the connections stay as they are, and the session stays, goes, or is fresh -/
theorem step_offSocket {s s' : St} {o : Op} (ho : o.onSocket = false) (h : step s o = some s') :
    s'.connections = s.connections ∧
      (s'.session = s.session ∨ s'.session = none ∨ s'.session = some ⟨[], .accepting⟩) := by
  cases o with
  | start _ ok =>
    simp only [step] at h
    split_ifs at h with _ hok
    · cases h
      exact ⟨rfl, Or.inr (Or.inr rfl)⟩
    · cases h
      exact ⟨rfl, Or.inr (Or.inl rfl)⟩
  | joined _ | destroyed =>
    simp only [step] at h
    split_ifs at h
    cases h
    exact ⟨rfl, Or.inr (Or.inl rfl)⟩
  | rpc _ | signal | lock _ | reset _ | waited =>
    simp only [step] at h
    split_ifs at h
    all_goals
      cases h
      exact ⟨rfl, Or.inl rfl⟩
  | _ => cases ho

theorem Ordered.congr {s s' : St} (hs : Ordered s) (h : s'.main = s.main ∧ s'.handlers = s.handlers ∧
    s'.mutex = s.mutex ∧ s'.session.isSome = s.session.isSome) : Ordered s' := by
  obtain ⟨hmain, hhandlers, hmutex, hsession⟩ := h
  refine ⟨?_, ?_, ?_⟩
  · rw [hhandlers, hmutex]
    exact hs.owner
  · rw [hhandlers, hmain]
    exact hs.finished
  · rw [Destroying, hhandlers, hmain, hsession]
    exact hs.session

/-- while a handler is at work the main thread is not past waiting for it -/
theorem Ordered.active {s : St} (hs : Ordered s) {h : ℕ} {x : Handler} (hx : s.handlers[h]? = some x) (hdone : x ≠ .done) :
    s.main ≠ .destroying ∧ s.main ≠ .stopped :=
  ⟨fun hm => hdone (hs.finished (Or.inl hm) x (List.mem_of_getElem? hx)),
    fun hm => hdone (hs.finished (Or.inr hm) x (List.mem_of_getElem? hx))⟩

/-- the handler that holds the mutex is the only one past it -/
theorem Ordered.alone {s : St} (hs : Ordered s) {h j : ℕ} {x y : Handler} (hx : s.handlers[h]? = some x)
    (hxh : x.holds = true) (hy : s.handlers[j]? = some y) (hyh : y.holds = true) : j = h :=
  Option.some.inj ((hs.owner j y hy hyh).symm.trans (hs.owner h x hx hxh))

/-- the handler with the mutex moves on, and keeps the mutex while it holds it -/
theorem Ordered.move {s s' : St} (hs : Ordered s) {h : ℕ} {x y : Handler} (hx : s.handlers[h]? = some x)
    (hxh : x.holds = true) (hmain : s'.main = s.main) (hhandlers : s'.handlers = s.handlers.set h y)
    (hmutex : y.holds = true → s'.mutex = s.mutex) (hsession : y = .joining → s'.session.isSome) : Ordered s' := by
  have hdone : x ≠ .done := fun hd => by rw [hd] at hxh; cases hxh
  have hactive := hs.active hx hdone
  refine ⟨?_, ?_, ?_⟩
  · intro j z hj hz
    rw [hhandlers, List.getElem?_set] at hj
    split_ifs at hj with hjh
    · obtain rfl : y = z := Option.some.inj hj
      rw [hmutex hz, ← hjh]
      exact hs.owner h x hx hxh
    · exact absurd (hs.alone hx hxh hj hz).symm hjh
  · intro hm
    rw [hmain] at hm
    exact (hm.elim hactive.1 hactive.2).elim
  · intro hd
    rcases hd with hd | hd
    · rw [hhandlers] at hd
      obtain ⟨j, hj⟩ := List.mem_iff_getElem?.1 hd
      rw [List.getElem?_set] at hj
      split_ifs at hj with hjh
      · exact hsession (Option.some.inj hj)
      · exact absurd (hs.alone hx hxh hj rfl).symm hjh
    · exact absurd (hmain.symm.trans hd) hactive.1

/-- a new handler comes without the mutex -/
theorem Ordered.push {s s' : St} (hs : Ordered s) {x : Handler} (hx : x.holds = false) (hserving : s.main = .serving)
    (hmain : s'.main = s.main) (hhandlers : s'.handlers = s.handlers ++ [x]) (hmutex : s'.mutex = s.mutex)
    (hsession : s'.session = s.session) : Ordered s' := by
  rw [hserving] at hmain
  refine ⟨?_, ?_, ?_⟩
  · intro j y hj hy
    rw [hmutex]
    rw [hhandlers] at hj
    rcases lt_or_ge j s.handlers.length with hlt | hge
    · rw [List.getElem?_append_left hlt] at hj
      exact hs.owner j y hj hy
    · rw [List.getElem?_append_right hge] at hj
      rw [List.mem_singleton.1 (List.mem_of_getElem? hj), hx] at hy
      cases hy
  · intro hm
    rw [hmain] at hm
    rcases hm with hm | hm
    · cases hm
    · cases hm
  · intro hd
    rw [hsession]
    rcases hd with hd | hd
    · rw [hhandlers, List.mem_append, List.mem_singleton] at hd
      rcases hd with hd | hd
      · exact hs.session (Or.inl hd)
      · rw [← hd] at hx
        cases hx
    · cases hmain.symm.trans hd

/-- a handler takes the mutex that nobody has, on its way to the join and not yet in it -/
theorem Ordered.take {s s' : St} (hs : Ordered s) {h : ℕ} {x y : Handler} (hx : s.handlers[h]? = some x)
    (hdone : x ≠ .done) (hfree : s.mutex = none) (hy : y ≠ .joining) (hmain : s'.main = s.main)
    (hhandlers : s'.handlers = s.handlers.set h y) (hmutex : s'.mutex = some h) : Ordered s' := by
  have hnone : ∀ (k : ℕ) (z : Handler), s.handlers[k]? = some z → z.holds = false := by
    intro k z hk
    by_contra hz
    cases hfree.symm.trans (hs.owner k z hk (by simpa using hz))
  have hjoin : Handler.joining ∉ s'.handlers := by
    rw [hhandlers]
    intro hmem
    rcases List.mem_or_eq_of_mem_set hmem with hmem | he
    · obtain ⟨k, hk⟩ := List.mem_iff_getElem?.1 hmem
      cases hnone k _ hk
    · exact hy he.symm
  have hactive := hs.active hx hdone
  rw [← hmain] at hactive
  refine ⟨?_, fun hm => (hm.elim hactive.1 hactive.2).elim, fun hd => (hd.elim hjoin hactive.1).elim⟩
  intro k z hk hz
  rw [hhandlers, List.getElem?_set] at hk
  split_ifs at hk with hhk
  · rw [hmutex, hhk]
  · cases (hnone k z hk).symm.trans hz

theorem step_ordered {s s' : St} {o : Op} (hs : Ordered s) (h : step s o = some s') : Ordered s' := by
  cases o with
  | rpc emptyPath =>
    obtain ⟨hmain, h⟩ := Option.ite_none_right_eq_some.1 h
    cases h
    exact hs.push (by cases emptyPath <;> rfl) hmain rfl rfl rfl rfl
  | signal =>
    obtain ⟨hmain, h⟩ := Option.ite_none_right_eq_some.1 h
    cases h
    refine ⟨hs.owner, fun hm => by simp at hm, fun hd => hs.session ?_⟩
    exact Or.inl (hd.resolve_right (by simp))
  | lock j =>
    obtain ⟨⟨hj, hfree⟩, h⟩ := Option.ite_none_right_eq_some.1 h
    cases h
    exact hs.take hj (by decide) hfree (by decide) rfl rfl rfl
  | reset j =>
    obtain ⟨hj, h⟩ := Option.ite_none_right_eq_some.1 h
    cases h
    refine hs.move hj rfl rfl rfl (fun _ => rfl) ?_
    intro he
    by_contra hx
    rw [if_neg hx] at he
    cases he
  | joined j =>
    obtain ⟨⟨hj, -⟩, h⟩ := Option.ite_none_right_eq_some.1 h
    cases h
    exact hs.move hj rfl rfl rfl (fun _ => rfl) fun he => by cases he
  | start j ok =>
    obtain ⟨hj, h⟩ := Option.ite_none_right_eq_some.1 h
    cases h
    exact hs.move hj rfl rfl rfl (fun he => by cases he) fun he => by cases he
  | waited =>
    obtain ⟨⟨-, hdone⟩, h⟩ := Option.ite_none_right_eq_some.1 h
    cases h
    refine ⟨hs.owner, fun _ => hdone, ?_⟩
    intro hd
    rcases hd with hd | hd
    · cases hdone _ hd
    · by_contra hx
      simp only [if_neg hx] at hd
      cases hd
  | destroyed =>
    obtain ⟨⟨hmain, -⟩, h⟩ := Option.ite_none_right_eq_some.1 h
    cases h
    have hdone := hs.finished (Or.inl hmain)
    refine ⟨hs.owner, fun _ => hdone, ?_⟩
    intro hd
    rcases hd with hd | hd
    · cases hdone _ hd
    · cases hd
  | _ => exact hs.congr (step_onSocket rfl h)

theorem Wired.of_none {s : St} (h : s.session = none) : Wired s := by
  refine ⟨?_, ?_⟩
  · intro x hx
    cases h.symm.trans hx
  · intro x k buffer hx
    cases h.symm.trans hx

/-- the session's own backlog and connection -/
theorem Wired.of_some {s : St} {x : EngineSession} (h : s.session = some x)
    (hbacklog : ∀ k ∈ x.backlog, k < s.connections.length)
    (hreading : ∀ k buffer, x.thread = .reading k buffer → k < s.connections.length ∧ 0 < missing buffer) : Wired s := by
  refine ⟨?_, ?_⟩
  · intro y hy
    obtain rfl := Option.some.inj (h.symm.trans hy)
    exact hbacklog
  · intro y k buffer hy
    obtain rfl := Option.some.inj (h.symm.trans hy)
    exact hreading k buffer

theorem step_wired {s s' : St} {o : Op} (hs : Wired s) (h : step s o = some s') : Wired s' := by
  cases hsocket : o.onSocket with
  | false =>
    obtain ⟨hconn, hsession⟩ := step_offSocket hsocket h
    rcases hsession with hsession | hsession | hsession
    · refine ⟨?_, ?_⟩
      · rw [hconn, hsession]
        exact hs.backlog
      · rw [hconn, hsession]
        exact hs.reading
    · exact .of_none hsession
    · exact .of_some hsession (fun k hk => (List.not_mem_nil hk).elim) nofun
  | true =>
    cases socketStep_of_step hsocket h with
    | @connect x hx =>
      refine .of_some rfl ?_ ?_
      · intro k hk
        rw [List.length_append]
        rcases List.mem_append.1 hk with hk | hk
        · exact Nat.lt_succ_of_lt (hs.backlog x hx k hk)
        · rw [List.mem_singleton.1 hk]
          exact Nat.lt_succ_self _
      · intro k buffer hthread
        obtain ⟨hk, hmissing⟩ := hs.reading x k buffer hx hthread
        rw [List.length_append]
        exact ⟨Nat.lt_succ_of_lt hk, hmissing⟩
    | send _ | close _ => exact ⟨by simpa using hs.backlog, by simpa using hs.reading⟩
    | @accept k backlog hx =>
      have hbacklog := hs.backlog _ hx
      refine .of_some rfl (fun j hj => hbacklog j (List.mem_cons_of_mem _ hj)) ?_
      intro j buffer hthread
      cases hthread
      exact ⟨hbacklog k List.mem_cons_self, by decide⟩
    | @read n k backlog buffer unread isOpen hx =>
      refine .of_some rfl ?_ ?_
      · intro j hj
        rw [List.length_set]
        exact hs.backlog _ hx j hj
      · intro j buffer' hthread
        cases hthread
        rw [List.length_set]
        exact ⟨(hs.reading _ k buffer hx rfl).1, missing_nextBuffer _⟩
    | endOfStream hx _ =>
      have hbacklog := hs.backlog _ hx
      exact .of_some rfl hbacklog nofun

theorem act_inv {s : St} (hs : Inv s) (o : Op) : Inv (act s o) := by
  unfold act
  cases h : step s o with
  | none => exact hs
  | some s' => exact ⟨step_ordered hs.ordered h, step_wired hs.wired h⟩

theorem init_inv : Inv init := by
  refine ⟨⟨?_, ?_, ?_⟩, ?_, ?_⟩
  · intro h x hx
    simp [init] at hx
  · intro hm
    rcases hm with hm | hm
    · cases hm
    · cases hm
  · intro hd
    rcases hd with hd | hd
    · cases hd
    · cases hd
  · intro x hx
    cases hx
  · intro x k buffer hx
    cases hx

/-! ## Blocked -/

/-- while a session is being destroyed, the handlers and the main thread wait for its thread to end -/
theorem waits_for_thread {s : St} (hs : Ordered s) (hd : Destroying s) (hthread : s.threadEnded = false) {o : Op}
    (ho : o.onSocket = false) (hserver : o.serverSide = true) : step s o = none := by
  -- the only handler with the mutex, if any, is the one in the join
  have hnone : ∀ (j : ℕ) (x : Handler), s.handlers[j]? = some x → x ≠ .done → x ≠ .joining →
      s.mutex ≠ none ∧ x.holds = false := by
    intro j x hj hdone hjoin
    have hactive := hs.active hj hdone
    obtain ⟨h, hh⟩ := List.mem_iff_getElem?.1 (hd.resolve_right hactive.1)
    have howner := hs.owner h _ hh rfl
    refine ⟨by rw [howner]; exact Option.some_ne_none h, ?_⟩
    by_contra hx
    have hjh := hs.alone hh rfl hj (by simpa using hx)
    rw [hjh, hh] at hj
    exact hjoin (Option.some.inj hj).symm
  cases o with
  | lock j =>
    rw [step, if_neg]
    intro h
    exact (hnone j _ h.1 (by decide) (by decide)).1 h.2
  | reset j =>
    rw [step, if_neg]
    intro h
    cases (hnone j _ h (by decide) (by decide)).2
  | joined j =>
    rw [step, if_neg]
    intro h
    cases hthread.symm.trans h.2
  | start j ok =>
    rw [step, if_neg]
    intro h
    cases (hnone j _ h (by decide) (by decide)).2
  | waited =>
    rw [step, if_neg]
    intro h
    rcases hd with hd | hd
    · cases h.2 _ hd
    · cases hd.symm.trans h.1
  | destroyed =>
    rw [step, if_neg]
    intro h
    cases hthread.symm.trans h.2
  | rpc _ | signal => cases hserver
  | _ => cases ho

theorem Blocked.threadEnded {s : St} (hb : Blocked s) : s.threadEnded = false := by
  unfold Blocked at hb
  split at hb
  · rename_i hx
    rw [St.threadEnded, hx]
    rfl
  · rename_i hx
    rw [St.threadEnded, hx]
    rfl
  · exact hb.elim

/-- a blocked thread does nothing -/
theorem Blocked.idle {s : St} (hb : Blocked s) {o : Op} (ho : o.onSocket = true) (hserver : o.serverSide = true) :
    step s o = none := by
  cases h : step s o with
  | none => rfl
  | some s' =>
    unfold Blocked at hb
    cases socketStep_of_step ho h with
    | connect | send | close => cases hserver
    | accept hx =>
      rw [hx] at hb
      cases hb
    | read hx hk hn =>
      rw [hx] at hb
      obtain ⟨rfl, -⟩ := Connection.mk.inj (Option.some.inj (hk.symm.trans hb))
      exact absurd hn.2.2 (not_le.2 hn.1)
    | endOfStream hx hk =>
      rw [hx] at hb
      cases hk.symm.trans hb

/-- if the thread can take no step, it is blocked or has ended -/
theorem blocked_of_idle {s : St} (hs : Wired s) {x : EngineSession} (hx : s.session = some x) (hended : x.thread ≠ .ended)
    (hidle : ∀ o : Op, o.serverSide = true → step s o = none) : Blocked s := by
  obtain ⟨backlog, thread⟩ := x
  rw [Blocked, hx]
  cases thread with
  | accepting =>
    cases backlog with
    | nil => rfl
    | cons k backlog =>
      have haccept := hidle .accept rfl
      rw [step, hx] at haccept
      cases haccept
  | reading k buffer =>
    obtain ⟨hk, hmissing⟩ := hs.reading _ k buffer hx rfl
    obtain ⟨⟨unread, isOpen⟩, hconn⟩ : ∃ c, s.connections[k]? = some c := ⟨_, List.getElem?_eq_getElem hk⟩
    cases unread with
    | cons b unread =>
      have hread := hidle (.read 1) rfl
      rw [step, hx] at hread
      simp only [hconn] at hread
      rw [if_pos ⟨Nat.one_pos, hmissing, Nat.succ_le_succ (Nat.zero_le _)⟩] at hread
      cases hread
    | nil =>
      cases isOpen with
      | true => exact hconn
      | false =>
        have hend := hidle .endOfStream rfl
        rw [step, hx] at hend
        simp only [hconn] at hend
        cases hend
  | ended => exact absurd rfl hended

/-- once the thread has ended, the one that waits for it goes on -/
theorem join_enabled {s : St} (hd : Destroying s) (hthread : s.threadEnded = true) :
    ∃ o : Op, o.serverSide = true ∧ step s o ≠ none := by
  rcases hd with hd | hd
  · obtain ⟨h, hh⟩ := List.mem_iff_getElem?.1 hd
    refine ⟨.joined h, rfl, ?_⟩
    rw [step, if_pos ⟨hh, hthread⟩]
    exact Option.some_ne_none _
  · refine ⟨.destroyed, rfl, ?_⟩
    rw [step, if_pos ⟨hd, hthread⟩]
    exact Option.some_ne_none _

/-- **Blocked is stuck.** While a session is being destroyed, its thread is blocked in accept, or in a read on a
connection that the client keeps open, exactly when no step of the server is enabled. -/
theorem blocked_iff {s : St} (hs : Inv s) (hd : Destroying s) :
    Blocked s ↔ ∀ o : Op, o.serverSide = true → step s o = none := by
  refine ⟨?_, ?_⟩
  · intro hb o hserver
    cases ho : o.onSocket with
    | false => exact waits_for_thread hs.ordered hd hb.threadEnded ho hserver
    | true => exact hb.idle ho hserver
  · intro hidle
    obtain ⟨x, hx⟩ := Option.isSome_iff_exists.1 (hs.ordered.session hd)
    refine blocked_of_idle hs.wired hx ?_ hidle
    intro hended
    have hthread : s.threadEnded = true := by
      rw [St.threadEnded, hx]
      exact decide_eq_true hended
    obtain ⟨o, hserver, hstep⟩ := join_enabled hd hthread
    exact hstep (hidle o hserver)

/-! ## Clients that close -/

theorem Closed.set {connections : List Connection} {k j : ℕ} {unread unread' : List UInt8} {isOpen isOpen' : Bool}
    (h : Closed connections k) (hj : connections[j]? = some ⟨unread, isOpen⟩) (ho : isOpen = false → isOpen' = false) :
    Closed (connections.set j ⟨unread', isOpen'⟩) k := by
  obtain ⟨u, hk⟩ := h
  obtain ⟨hlt, -⟩ := List.getElem?_eq_some_iff.1 hk
  by_cases hjk : j = k
  · subst hjk
    obtain ⟨-, rfl⟩ := Connection.mk.inj (Option.some.inj (hj.symm.trans hk))
    refine ⟨unread', ?_⟩
    rw [List.getElem?_set_self hlt, ho rfl]
  · refine ⟨u, ?_⟩
    rw [List.getElem?_set_ne hjk, hk]

/-- a closed connection stays closed -/
theorem step_closed {s s' : St} {o : Op} (h : step s o = some s') {k : ℕ} (hk : Closed s.connections k) :
    Closed s'.connections k := by
  cases ho : o.onSocket with
  | false =>
    rw [(step_offSocket ho h).1]
    exact hk
  | true =>
    cases socketStep_of_step ho h with
    | connect =>
      obtain ⟨u, hu⟩ := hk
      obtain ⟨hlt, -⟩ := List.getElem?_eq_some_iff.1 hu
      exact ⟨u, (List.getElem?_append_left hlt).trans hu⟩
    | send hj => exact hk.set hj id
    | close hj => exact hk.set hj fun _ => rfl
    | read _ hj _ => exact hk.set hj id
    | accept | endOfStream => exact hk

/-- the same session, with more in the backlog and the same thread, is still released -/
theorem Released.mono {s s' : St} (h : Released s) (hclosed : ∀ k, Closed s.connections k → Closed s'.connections k)
    {x : EngineSession} (hx : s.session = some x) {more : List ℕ}
    (hx' : s'.session = some { x with backlog := x.backlog ++ more }) : Released s' := by
  obtain ⟨backlog, thread⟩ := x
  rw [Released, hx] at h
  rw [Released, hx']
  cases thread with
  | accepting =>
    obtain ⟨k, hk, hkc⟩ := h
    exact ⟨k, by rw [List.head?_append, hk]; rfl, hclosed k hkc⟩
  | reading k buffer => exact hclosed k h
  | ended => trivial

theorem Released.keep {s s' : St} (h : Released s) (hclosed : ∀ k, Closed s.connections k → Closed s'.connections k)
    (hx' : s'.session = s.session) : Released s' := by
  cases hx : s.session with
  | none =>
    rw [Released, hx', hx]
    trivial
  | some x =>
    have hmore : s'.session = some { x with backlog := x.backlog ++ [] } := by rw [hx', hx, List.append_nil]
    exact h.mono hclosed hx hmore

/-- **A released session stays released**, whatever the clients and its thread do. -/
theorem step_released {s s' : St} {o : Op} (hs : Released s) (ho : o.onSocket = true) (h : step s o = some s') :
    Released s' := by
  have hclosed : ∀ k, Closed s.connections k → Closed s'.connections k := fun k => step_closed h
  cases socketStep_of_step ho h with
  | connect hx => exact hs.mono hclosed hx rfl
  | send | close => exact hs.keep hclosed rfl
  | @accept k backlog hx =>
    rw [Released, hx] at hs
    obtain ⟨k', hk', hk⟩ := hs
    obtain rfl : k = k' := Option.some.inj hk'
    exact hk
  | @read n k backlog buffer unread isOpen hx =>
    rw [Released, hx] at hs
    exact hclosed k hs
  | endOfStream => trivial

/-- **One step of an expected client.** A session that is being destroyed has been released. -/
theorem step_expected {s s' : St} {o : Op} (hs : Inv s) (hr : Destroying s → Released s) (he : Expected s o)
    (h : step s o = some s') (hd : Destroying s') : Released s' := by
  have hclosed : ∀ k, Closed s.connections k → Closed s'.connections k := fun k => step_closed h
  cases ho : o.onSocket with
  | true =>
    obtain ⟨hmain, hhandlers, -⟩ := step_onSocket ho h
    rw [Destroying, hmain, hhandlers] at hd
    exact step_released (hr hd) ho h
  | false =>
    have hordered := step_ordered hs.ordered h
    cases o with
    | rpc emptyPath =>
      obtain ⟨hmain, h⟩ := Option.ite_none_right_eq_some.1 h
      cases h
      refine (hr (Or.inl ?_)).keep hclosed rfl
      have hjoin := hd.resolve_right (by simp [hmain])
      rcases List.mem_append.1 hjoin with hjoin | hjoin
      · exact hjoin
      · cases emptyPath <;> simp at hjoin
    | signal =>
      obtain ⟨-, h⟩ := Option.ite_none_right_eq_some.1 h
      cases h
      exact (hr (Or.inl (hd.resolve_right (by simp)))).keep hclosed rfl
    | lock j =>
      obtain ⟨-, h⟩ := Option.ite_none_right_eq_some.1 h
      cases h
      refine (hr ?_).keep hclosed rfl
      rcases hd with hd | hd
      · exact Or.inl ((List.mem_or_eq_of_mem_set hd).resolve_right (by simp))
      · exact Or.inr hd
    | reset j =>
      obtain ⟨hj, h⟩ := Option.ite_none_right_eq_some.1 h
      cases h
      exact (he hj).keep hclosed rfl
    | waited =>
      obtain ⟨hw, h⟩ := Option.ite_none_right_eq_some.1 h
      cases h
      exact (he hw).keep hclosed rfl
    | joined j | destroyed =>
      obtain ⟨-, h⟩ := Option.ite_none_right_eq_some.1 h
      cases h
      trivial
    | start j ok =>
      obtain ⟨hj, h⟩ := Option.ite_none_right_eq_some.1 h
      cases h
      -- the mutex is free, so no handler is in a join
      rcases hd with hd | hd
      · obtain ⟨k, hk⟩ := List.mem_iff_getElem?.1 hd
        cases hordered.owner k _ hk rfl
      · exact absurd hd (hs.ordered.active hj (by decide)).1
    | _ => cases ho

theorem inv_run (ops : List Op) : Inv (run act init ops) :=
  run_inv (P := Inv) (fun _ o hs => act_inv hs o) init_inv ops

/-- with expected clients, a session that is being destroyed has been released -/
theorem run_released {ops : List Op} (h : Along act Expected init ops) :
    Destroying (run act init ops) → Released (run act init ops) := by
  have hinit : Inv init ∧ (Destroying init → Released init) := ⟨init_inv, fun _ => trivial⟩
  refine (run_inv_of (P := fun s => Inv s ∧ (Destroying s → Released s)) ?_ hinit h).2
  intro s o hs he
  refine ⟨act_inv hs.1 o, ?_⟩
  unfold act
  cases hstep : step s o with
  | none => exact hs.2
  | some s' => exact step_expected hs.1 hs.2 he hstep

theorem not_blocked {s : St} (h : Released s) : ¬ Blocked s := by
  intro hb
  unfold Released at h
  unfold Blocked at hb
  split at hb
  · rename_i backlog hx
    rw [hx] at h
    obtain ⟨k, hk, -⟩ := h
    rw [hb] at hk
    cases hk
  · rename_i backlog k buffer hx
    rw [hx] at h
    obtain ⟨u, hu⟩ := h
    cases (Connection.mk.inj (Option.some.inj (hb.symm.trans hu))).2
  · exact hb

/-- **Stuck only on an absent client.** In every interleaving: while a handler or the destructor waits in the join of a
session, its socket thread is blocked exactly when no step of the server is enabled; and this never happens if each
session's client has connected and closed its connection before the session begins to be destroyed. -/
theorem stuck_only_on_absent_client (ops : List Op) :
    (Destroying (run act init ops) →
      (Blocked (run act init ops) ↔ ∀ o : Op, o.serverSide = true → step (run act init ops) o = none)) ∧
    (Along act Expected init ops → ¬ (Destroying (run act init ops) ∧ Blocked (run act init ops))) := by
  refine ⟨blocked_iff (inv_run ops), ?_⟩
  intro h hstuck
  exact not_blocked (run_released h hstuck.1) hstuck.2

/-- a client that connects and closes before the next CreateSession -/
def passing : List Op :=
  [.rpc false, .lock 0, .reset 0, .start 0 true, .connect, .close 0, .rpc false, .lock 1, .reset 1]

theorem passing_client_frees : Destroying (run act init passing) ∧ ¬ Blocked (run act init passing) := by
  have hd : Destroying (run act init passing) := Or.inl (by decide)
  have hexpected : Along act Expected init passing := by
    refine along_cons.2 ⟨False.elim, along_cons.2 ⟨False.elim, along_cons.2 ⟨fun _ => trivial, ?_⟩⟩⟩
    refine along_cons.2 ⟨False.elim, along_cons.2 ⟨False.elim, along_cons.2 ⟨False.elim, ?_⟩⟩⟩
    refine along_cons.2 ⟨False.elim, along_cons.2 ⟨False.elim, along_cons.2 ⟨fun _ => ⟨0, rfl, [], rfl⟩, ?_⟩⟩⟩
    exact along_nil _ _ _
  exact ⟨hd, fun hb => (stuck_only_on_absent_client passing).2 hexpected ⟨hd, hb⟩⟩

/-- **A server stuck on an absent client.** A session is created, nobody connects, and the next CreateSession waits for
it with the mutex; no step of the server is left. -/
theorem absent_client_sticks :
    ∃ ops : List Op, Destroying (run act init ops) ∧ Blocked (run act init ops) ∧ (run act init ops).mutex = some 1 ∧
      ∀ o : Op, o.serverSide = true → step (run act init ops) o = none := by
  refine ⟨[.rpc false, .lock 0, .reset 0, .start 0 true, .rpc false, .lock 1, .reset 1], ?_⟩
  have hd : Destroying (run act init [.rpc false, .lock 0, .reset 0, .start 0 true, .rpc false, .lock 1, .reset 1]) :=
    Or.inl (by decide)
  have hb : Blocked (run act init [.rpc false, .lock 0, .reset 0, .start 0 true, .rpc false, .lock 1, .reset 1]) := rfl
  exact ⟨hd, hb, rfl, (blocked_iff (inv_run _) hd).1 hb⟩

end Viduce.SessionThreads
