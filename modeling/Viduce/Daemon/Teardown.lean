/-
The teardown of the daemon (`server/server.py`, `serve`): `servicer.reset()`, then `server.stop(grace)`, then the return,
with client requests between them. A request is accepted until the server is stopped and runs later, under the service
lock; the server returns once the requests it accepted have run.

- `daemonRun_service`: the service of a daemon is the service after the operations its events ran.
- `leak_stays`: with fresh ids, a leaked segment is never unlinked.
- `teardown_clean`: a returned daemon is clean when no CreateSession leaked and every session opened was given up before the
  return; with fresh ids, only then.
- `late_create_survives`: a CreateSession accepted before the stop and run after the reset leaves its session behind.
-/
import Mathlib.Tactic
import Viduce.Daemon.Isolation
import Viduce.Daemon.Segments

namespace Viduce.Service

open Viduce.Run Viduce.SessionRunner Viduce.Shm Viduce.Session

variable {V : Type}

/-! ## The daemon -/

/-- the operation is a request of a client -/
def Op.isRpc : Op V → Bool
  | .createSession .. => true
  | .interpolateChunk _ => true
  | .destroySession _ => true
  | _ => false

/-- a request of a client -/
def Rpc (V : Type) : Type := {o : Op V // o.isRpc = true}

/-- how far `serve` has come -/
inductive Phase where
  | serving
  | reset
  | stopped
  | returned
deriving DecidableEq, Repr

structure Daemon (V : Type) where
  service : LdfVfiService V
  /-- the requests accepted and not yet run: they wait for a worker or for the lock -/
  accepted : List (Rpc V)
  phase : Phase

def Daemon.init (V : Type) : Daemon V := ⟨LdfVfiService.init V, [], .serving⟩

inductive Event (V : Type) where
  /-- a client's request arrives -/
  | accept (rpc : Rpc V)
  /-- a worker takes the lock and runs accepted request k -/
  | work (k : ℕ)
  | servicerReset
  | serverStop
  | serveReturn
  | stage (bytes : List UInt8)
  | other (name : String) (link : Bool)

/-- what the event runs on the service -/
def operation (d : Daemon V) : Event V → Option (Op V)
  | .work k => d.accepted[k]?.map Subtype.val
  | .servicerReset => if d.phase = .serving then some .reset else none
  | .stage bytes => some (.stage bytes)
  | .other name link => some (.other name link)
  | _ => none

/-- once stopped, the server refuses requests -/
def acceptedAfter (d : Daemon V) : Event V → List (Rpc V)
  | .accept rpc => if d.phase = .serving ∨ d.phase = .reset then d.accepted ++ [rpc] else d.accepted
  | .work k => d.accepted.eraseIdx k
  | _ => d.accepted

/-- the steps of `serve` come in order, and the last one waits for the accepted requests -/
def phaseAfter (d : Daemon V) : Event V → Phase
  | .servicerReset => if d.phase = .serving then .reset else d.phase
  | .serverStop => if d.phase = .reset then .stopped else d.phase
  | .serveReturn => if d.phase = .stopped ∧ d.accepted = [] then .returned else d.phase
  | _ => d.phase

section Daemon

variable [Add V] [SMul ℚ V]

def daemonStep (M : Precond V) (d : Daemon V) (e : Event V) : Daemon V where
  service := (operation d e).elim d.service (step M d.service)
  accepted := acceptedAfter d e
  phase := phaseAfter d e

def daemonRun (M : Precond V) (events : List (Event V)) : Daemon V := run (daemonStep M) (Daemon.init V) events

/-- the operations a list of events runs on the service -/
def operations (M : Precond V) (d : Daemon V) : List (Event V) → List (Op V)
  | [] => []
  | e :: events => (operation d e).toList ++ operations M (daemonStep M d e) events

/-- no session is active, and no segment the service created is linked -/
def Clean (d : Daemon V) : Prop := d.service.activeSession = none ∧ d.service.os.own = ∅

/-- the daemon's service only moves by the operations its events run -/
theorem daemon_service (M : Precond V) (d : Daemon V) (events : List (Event V)) :
    (run (daemonStep M) d events).service = run (step M) d.service (operations M d events) := by
  induction events generalizing d with
  | nil => rfl
  | cons e events ih =>
    rw [run_cons, ih, operations, run_append]
    cases h : operation d e with
    | none => simp [daemonStep, h]
    | some o => simp [daemonStep, h, run_cons]

theorem daemonRun_service (M : Precond V) (events : List (Event V)) :
    (daemonRun M events).service = after M (operations M (Daemon.init V) events) :=
  daemon_service M (Daemon.init V) events

end Daemon

/-! ## Sessions left behind -/

/-- the CreateSession passes its checks, and both segments of its session open -/
def Opens (s : LdfVfiService V) (id : String) : Op V → Prop
  | .createSession request sessionId faults =>
    request.Valid ∧ Constructs s.clearedOs sessionId.val faults ∧ sessionId.val = id
  | _ => False

theorem creates_iff_opens {s : LdfVfiService V} (hs : Named s) (id : String) (o : Op V) :
    Creates s id o ↔ Opens s id o := by
  cases o with
  | createSession request sessionId faults =>
    simp only [Creates, Opens]
    rcases createSession_outcome request sessionId faults hs with
        ⟨hv, msg, hrun⟩ | ⟨hv, hc, g, hrun⟩ | ⟨-, hc, st, os', hrun, -⟩
    · simp [hrun, hv]
    · simp [hrun, hv, hc]
    · simp [hrun, hc]
  | interpolateChunk request => exact Iff.rfl
  | destroySession id' => exact Iff.rfl
  | reset => exact Iff.rfl
  | stage bytes => exact Iff.rfl
  | other name link => exact Iff.rfl

theorem active_none_iff (s : LdfVfiService V) : s.activeSession = none ↔ ∀ id, ¬ Accepts s id := by
  refine ⟨?_, ?_⟩
  · rintro h id ⟨x, hx, -⟩
    rw [h] at hx
    cases hx
  · intro h
    cases hx : s.activeSession with
    | none => rfl
    | some x => exact absurd ⟨x, hx, rfl⟩ (h x.sessionId)

/-- giving up the active session leaves the segments of other ids alone -/
theorem cleared_other {s : LdfVfiService V} {id : String} (h : ¬ Accepts s id) :
    s.clearedOs (inputName id) = s.os (inputName id) := by
  unfold LdfVfiService.clearedOs
  cases hx : s.activeSession with
  | none => rfl
  | some x =>
    have hne : inputName id ≠ inputName x.sessionId := fun he => h ⟨x, hx, (inputName_inj he).symm⟩
    simp only
    rw [Function.update_of_ne (inputName_ne_outputName _ _), Function.update_of_ne hne]

section Runs

variable [Add V] [SMul ℚ V]

/-- the operations opened this session, and none of them since has given it up: no DestroySession with its id, no
CreateSession past its validation, no reset -/
def LeftOpen (M : Precond V) (id : String) (ops : List (Op V)) : Prop :=
  ∃ pre o post, ops = pre ++ o :: post ∧ Opens (after M pre) id o ∧ ∀ o' ∈ post, ¬ Ends id o'

theorem leftOpen_iff (M : Precond V) (id : String) (ops : List (Op V)) :
    LeftOpen M id ops ↔ Accepts (after M ops) id := by
  rw [accepts_iff]
  unfold LeftOpen LastCreated
  simp only [creates_iff_opens (after_named M _)]

/-- no CreateSession opened its input segment and failed to open its output segment -/
def NoLeak (M : Precond V) (ops : List (Op V)) : Prop :=
  Along (step M) (fun s o => ¬ LeakingCreate s o) (LdfVfiService.init V) ops

/-! ## A leak stays -/

/-- an operation that does not draw the id leaves its leaked segment linked -/
theorem leaked_step (M : Precond V) {s : LdfVfiService V} (hs : Named s) {id : String} (hno : ¬ Accepts s id)
    (hlinked : s.os (inputName id) = some .service) {o : Op V} (ho : ¬ Draws id o) :
    (step M s o).os (inputName id) = some .service := by
  have hcleared := (cleared_other hno).trans hlinked
  cases o with
  | createSession request sessionId faults =>
    rw [step]
    rcases createSession_outcome request sessionId faults hs with
        ⟨-, msg, h⟩ | ⟨hv, -, g, h⟩ | ⟨hv, -, st, os', h, -, hleft⟩
    · rwa [h]
    · have hne : inputName id ≠ inputName sessionId.val := fun he => ho ⟨hv, (inputName_inj he).symm⟩
      rw [h]
      simpa [linkBoth, inputName_ne_outputName, Function.update_of_ne hne] using hcleared
    · have hne : inputName id ≠ inputName sessionId.val := fun he => ho ⟨hv, (inputName_inj he).symm⟩
      rw [h]
      by_cases hl : Leaks s.clearedOs sessionId.val faults
      · rcases hleft.leak hl with rfl | rfl
        · simpa [Function.update_of_ne hne] using hcleared
        · simpa [inputName_ne_outputName, Function.update_of_ne hne] using hcleared
      · rcases hleft.clean hl with rfl | rfl
        · exact hcleared
        · simpa [Function.update_of_ne hne] using hcleared
  | interpolateChunk request =>
    rw [step]
    rcases interpolateChunk_outcome M request s with ⟨-, msg, h⟩ | ⟨-, msg, h⟩ | ⟨-, x, r, b, reply, hx, h, -⟩
    · rwa [h]
    · rwa [h]
    · rwa [h]
  | destroySession id' =>
    rw [step]
    rcases destroySession_outcome id' hs with ⟨-, msg, h⟩ | ⟨-, h⟩
    · rwa [h]
    · rwa [h]
  | reset => rwa [step, reset_run hs]
  | stage bytes => exact hlinked
  | other name link =>
    have hown : inputName id ∈ (otherProcess name link s.os).own := by
      rw [own_other]
      exact hlinked
    exact hown

/-- what a leaking CreateSession leaves: the input segment is linked, and its id has no session -/
theorem leaking_state (M : Precond V) {s : LdfVfiService V} (hs : Named s) {o : Op V} (h : LeakingCreate s o) :
    ∃ id, Draws id o ∧ (step M s o).os (inputName id) = some .service ∧ (step M s o).activeSession = none := by
  cases o with
  | createSession request sessionId faults =>
    refine ⟨sessionId.val, ⟨h.1, rfl⟩, ?_⟩
    rw [step]
    rcases createSession_outcome request sessionId faults hs with
        ⟨hv, -⟩ | ⟨-, hc, -⟩ | ⟨-, -, st, os', hrun, -, hleft⟩
    · exact absurd h.1 hv
    · exact absurd (h.2.2.2.symm.trans hc.2.2) (by decide)
    · rw [hrun]
      refine ⟨?_, rfl⟩
      rcases hleft.leak h.2 with rfl | rfl
      · simp
      · simp [inputName_ne_outputName]
  | interpolateChunk request => exact h.elim
  | destroySession id => exact h.elim
  | reset => exact h.elim
  | stage bytes => exact h.elim
  | other name link => exact h.elim

/-- **A leak stays.** With fresh ids, the segment of a leaking CreateSession is linked at the end of the run. -/
theorem leak_stays (M : Precond V) {pre : List (Op V)} {o : Op V} (h : LeakingCreate (after M pre) o)
    (post : List (Op V)) (hfresh : FreshIds (pre ++ o :: post)) : (after M (pre ++ o :: post)).os.own ≠ ∅ := by
  obtain ⟨id, hdraws, hlinked, hnone⟩ := leaking_state M (after_named M pre) h
  have hkept : (after M (pre ++ o :: post)).os (inputName id) = some .service ∧
      ¬ Accepts (after M (pre ++ o :: post)) id := by
    induction post using List.reverseRecOn with
    | nil =>
      rw [after, run_snoc]
      refine ⟨hlinked, ?_⟩
      exact (active_none_iff _).1 hnone id
    | append_singleton post o' ih =>
      rw [← List.cons_append, ← List.append_assoc] at hfresh ⊢
      obtain ⟨hpre, -, hlast⟩ := List.pairwise_append.1 hfresh
      obtain ⟨hlinked', hno⟩ := ih hpre
      have hnamed := after_named M (pre ++ o :: post)
      have hother : ¬ Draws id o' := hlast o (by simp) o' (List.mem_singleton_self _) id hdraws
      rw [after, run_snoc]
      refine ⟨leaked_step M hnamed hno hlinked' hother, ?_⟩
      intro hacc
      rcases (accepts_step M id _ o' hnamed).1 hacc with hcreates | ⟨hacc, -⟩
      · exact hother (creates_draws hnamed hcreates)
      · exact hno hacc
  intro hown
  have hmem : inputName id ∈ (after M (pre ++ o :: post)).os.own := hkept.1
  rw [hown] at hmem
  exact hmem

/-! ## Clean or not -/

theorem operations_append (M : Precond V) (d : Daemon V) (a b : List (Event V)) :
    operations M d (a ++ b) = operations M d a ++ operations M (run (daemonStep M) d a) b := by
  induction a generalizing d with
  | nil => rfl
  | cons e a ih => rw [List.cons_append, operations, ih, operations, run_cons, List.append_assoc]

/-- each operation was run by an event -/
theorem operations_split (M : Precond V) {d : Daemon V} {events : List (Event V)} {pre' post' : List (Op V)} {o : Op V}
    (h : operations M d events = pre' ++ o :: post') :
    ∃ pre e post, events = pre ++ e :: post ∧ operation (run (daemonStep M) d pre) e = some o ∧
      operations M d pre = pre' ∧ operations M (run (daemonStep M) d (pre ++ [e])) post = post' := by
  induction events generalizing d pre' with
  | nil => simp [operations] at h
  | cons e events ih =>
    rw [operations] at h
    cases hop : operation d e with
    | none =>
      rw [hop, Option.toList_none, List.nil_append] at h
      obtain ⟨pre, e', post, rfl, ho, hpre, hpost⟩ := ih h
      exact ⟨e :: pre, e', post, rfl, ho, by rw [operations, hop, hpre]; rfl, hpost⟩
    | some o₁ =>
      rw [hop, Option.toList_some, List.singleton_append] at h
      cases pre' with
      | nil =>
        obtain ⟨rfl, hpost⟩ := List.cons.inj h
        exact ⟨[], e, events, rfl, hop, rfl, hpost⟩
      | cons o₂ pre' =>
        obtain ⟨rfl, hrest⟩ := List.cons.inj h
        obtain ⟨pre, e', post, rfl, ho, hpre, hpost⟩ := ih hrest
        exact ⟨e :: pre, e', post, rfl, ho, by rw [operations, hop, hpre]; rfl, hpost⟩

/-- `serve` does not get past serving without running the reset -/
theorem reset_runs (M : Precond V) {d : Daemon V} (hd : d.phase = .serving) {events : List (Event V)}
    (h : (run (daemonStep M) d events).phase ≠ .serving) : .reset ∈ operations M d events := by
  induction events generalizing d with
  | nil => exact absurd hd h
  | cons e events ih =>
    rw [operations, List.mem_append]
    by_cases hnext : (daemonStep M d e).phase = .serving
    · exact Or.inr (ih hnext h)
    · left
      cases e with
      | servicerReset => simp [operation, hd]
      | accept rpc => exact absurd hd hnext
      | work k => exact absurd hd hnext
      | serverStop => simp [daemonStep, phaseAfter, hd] at hnext
      | serveReturn => simp [daemonStep, phaseAfter, hd] at hnext
      | stage bytes => exact absurd hd hnext
      | other name link => exact absurd hd hnext

/-- after the reset of the teardown a worker ran a CreateSession that opened its session, and no request run after it gave
the session up -/
def LateCreate (M : Precond V) (id : String) (events : List (Event V)) : Prop :=
  ∃ pre k post o, events = pre ++ .work k :: post ∧ (daemonRun M pre).phase ≠ .serving ∧
    operation (daemonRun M pre) (.work k) = some o ∧ Opens (daemonRun M pre).service id o ∧
    ∀ o' ∈ operations M (daemonRun M (pre ++ [.work k])) post, ¬ Ends id o'

/-- the sessions open when `serve` returns are those of the late CreateSessions: the reset ended the others -/
theorem lateCreate_iff (M : Precond V) (id : String) {events : List (Event V)}
    (hret : (daemonRun M events).phase = .returned) :
    LateCreate M id events ↔ LeftOpen M id (operations M (Daemon.init V) events) := by
  refine ⟨?_, ?_⟩
  · intro h
    rcases h with ⟨pre, k, post, o, rfl, -, ho, hopens, hpost⟩
    refine ⟨operations M (Daemon.init V) pre, o, _, ?_, ?_, hpost⟩
    · rw [operations_append, operations, daemonRun, run_snoc]
      unfold daemonRun at ho
      rw [ho]
      rfl
    · rwa [daemonRun_service] at hopens
  · intro h
    rcases h with ⟨pre', o, post', hops, hopens, hpost⟩
    obtain ⟨pre, e, post, rfl, ho, rfl, rfl⟩ := operations_split M hops
    rw [← daemonRun_service] at hopens
    cases e with
    | work k =>
      refine ⟨pre, k, post, o, rfl, fun hserving => ?_, ho, hopens, hpost⟩
      have hstill : (run (daemonStep M) (Daemon.init V) (pre ++ [.work k])).phase = .serving := by
        rw [run_snoc]
        exact hserving
      have hgone : (run (daemonStep M) (run (daemonStep M) (Daemon.init V) (pre ++ [.work k])) post).phase ≠ .serving := by
        rw [← run_append, List.append_assoc, List.singleton_append]
        unfold daemonRun at hret
        rw [hret]
        decide
      exact hpost .reset (reset_runs M hstill hgone) trivial
    | accept rpc => cases ho
    | servicerReset =>
      simp only [operation] at ho
      split_ifs at ho
      cases ho
      exact hopens.elim
    | serverStop => cases ho
    | serveReturn => cases ho
    | stage bytes =>
      cases ho
      exact hopens.elim
    | other name link =>
      cases ho
      exact hopens.elim

/-- **A clean teardown, exactly.** In every interleaving in which `serve` has returned: the daemon is clean if no
CreateSession leaked and every session opened after the reset was given up before the return; with fresh ids, only then. -/
theorem teardown_clean (M : Precond V) (events : List (Event V)) (hret : (daemonRun M events).phase = .returned) :
    (NoLeak M (operations M (Daemon.init V) events) ∧ (∀ id, ¬ LateCreate M id events) → Clean (daemonRun M events)) ∧
    (FreshIds (operations M (Daemon.init V) events) → Clean (daemonRun M events) →
      NoLeak M (operations M (Daemon.init V) events) ∧ ∀ id, ¬ LateCreate M id events) := by
  unfold Clean
  simp only [lateCreate_iff M _ hret, leftOpen_iff, ← active_none_iff]
  rw [daemonRun_service]
  generalize operations M (Daemon.init V) events = ops
  refine ⟨?_, ?_⟩
  · intro h
    rcases h with ⟨hleak, hnone⟩
    refine ⟨hnone, ?_⟩
    have hexact : (after M ops).os.own = ledger (after M ops) := exact_run M hleak
    rw [hexact, ledger, hnone]
  · intro hfresh h
    rcases h with ⟨hnone, hown⟩
    refine ⟨?_, hnone⟩
    rintro pre o post rfl hleak
    exact leak_stays M hleak post hfresh hown

end Runs

/-! ## Two teardowns -/

def createRpc : Rpc Unit := ⟨.createSession request32 someId SessionFaults.none, rfl⟩

/-- the session is created before the reset -/
def earlyCreate : List (Event Unit) := [.accept createRpc, .work 0, .servicerReset, .serverStop, .serveReturn]

/-- the session is created after it -/
def lateCreate : List (Event Unit) := [.accept createRpc, .servicerReset, .work 0, .serverStop, .serveReturn]

theorem noLeak_quiet (ops : List (Op Unit))
    (h : ∀ o ∈ ops, ∀ s, ¬ LeakingCreate s o) : NoLeak mockModel ops :=
  fun pre o post e => h o (by simp [e]) _

/-- a session created before the reset goes with it -/
theorem early_create_clean : Clean (daemonRun mockModel earlyCreate) := by
  have hret : (daemonRun mockModel earlyCreate).phase = .returned := rfl
  refine (teardown_clean mockModel earlyCreate hret).1 ⟨?_, ?_⟩
  · have hops : operations mockModel (Daemon.init Unit) earlyCreate = [createRpc.val, .reset] := rfl
    rw [hops]
    apply noLeak_quiet _
    intro o ho s hleak
    simp only [List.mem_cons, List.not_mem_nil, or_false] at ho
    rcases ho with rfl | rfl
    · have hopens : ∀ b, opens b (fun _ => none) = true := by decide
      exact absurd (hleak.2.2.2.symm.trans (hopens _)) (by decide)
    · exact hleak
  · -- the only request runs while the daemon is serving
    intro id h
    rcases h with ⟨pre, k, post, o, h, hphase, -⟩
    rcases pre with _ | ⟨e, _ | ⟨e', pre⟩⟩
    · cases h
    · obtain ⟨rfl, -⟩ := List.cons.inj h
      exact hphase rfl
    · simp [earlyCreate, List.cons_eq_append_iff] at h

/-- **A teardown that is not clean.** A CreateSession is accepted before the stop, and a worker takes the lock for it
after the reset: `serve` returns with its session active. -/
theorem late_create_survives :
    (daemonRun mockModel lateCreate).phase = .returned ∧ ¬ Clean (daemonRun mockModel lateCreate) := by
  refine ⟨rfl, ?_⟩
  intro hclean
  have hops : operations mockModel (Daemon.init Unit) lateCreate = [.reset, createRpc.val] := rfl
  have hnamed := after_named mockModel [.reset]
  have hstep := accepts_step mockModel someId.val _ createRpc.val hnamed
  have hacc := hstep.2 (Or.inl (creates_none hnamed someId))
  have hnone := hclean.1
  rw [daemonRun_service, hops] at hnone
  exact (active_none_iff _).1 hnone someId.val hacc

end Viduce.Service
