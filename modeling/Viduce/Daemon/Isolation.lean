/-
Which requests pass the session check, over every interleaving of clients. The slot is a single one, and every operation
of the service writes it under the lock.

- `accepts_step`: one operation sets, clears or keeps "the slot holds session id".
- `code_*`: how each call ends, on a state of the service.
- `session_isolation`: an id is accepted exactly since the CreateSession that returned it; once it is not, it never is
  again; and a call that ends in NOT_FOUND or INVALID_ARGUMENT has changed nothing.
-/
import Mathlib.Tactic
import Viduce.Daemon.MockModel
import Viduce.Daemon.Service

namespace Viduce.Service

open Viduce.Run Viduce.SessionRunner Viduce.Shm Viduce.Session

variable {V : Type}

/-! ## Requests and their answers -/

/-- the status a call ended in, if it did not end in a response -/
def codeOf {α : Type} : Except PyErr (Reply α) → Option StatusCode
  | .ok (.error status) => some status.code
  | _ => none

/-- the CreateSession returned this id -/
def Creates (s : LdfVfiService V) (id : String) : Op V → Prop
  | .createSession request sessionId faults =>
    ((LdfVfiService.createSession request sessionId faults).run s).1 = .ok (.ok id)
  | _ => False

/-- the operation gives up session id: its DestroySession, a CreateSession that got past its validation, a reset -/
def Ends (id : String) : Op V → Prop
  | .createSession request _ _ => request.Valid
  | .destroySession id' => id' = id
  | .reset => True
  | _ => False

/-- the operation draws this id from `uuid4` -/
def Draws (id : String) : Op V → Prop
  | .createSession request sessionId _ => request.Valid ∧ sessionId.val = id
  | _ => False

/-- no id is drawn twice -/
def FreshIds (ops : List (Op V)) : Prop := ops.Pairwise fun o o' => ∀ id, Draws id o → ¬ Draws id o'

/-- what fails during the operation is no ValueError -/
def Op.NoValueError : Op V → Prop
  | .createSession _ _ faults => faults.NoValueError
  | _ => True

theorem creates_draws {s : LdfVfiService V} (hs : Named s) {id : String} {o : Op V} (h : Creates s id o) :
    Draws id o := by
  cases o with
  | createSession request sessionId faults =>
    simp only [Creates] at h
    rcases createSession_outcome request sessionId faults hs with
        ⟨-, msg, hrun⟩ | ⟨hv, -, g, hrun⟩ | ⟨-, -, st, os', hrun, -⟩
    · rw [hrun] at h
      cases h
    · rw [hrun] at h
      cases h
      exact ⟨hv, rfl⟩
    · rw [hrun] at h
      cases h
  | interpolateChunk request => exact h.elim
  | destroySession id' => exact h.elim
  | reset => exact h.elim
  | stage bytes => exact h.elim
  | other name link => exact h.elim

theorem accepts_none {os : Os} {id : String} : ¬ Accepts (⟨none, os⟩ : LdfVfiService V) id := by
  intro h
  rcases h with ⟨x, hx, -⟩
  cases hx

theorem accepts_some {x : VfiSession V} {os : Os} {id : String} :
    Accepts (⟨some x, os⟩ : LdfVfiService V) id ↔ x.sessionId = id :=
  ⟨fun ⟨_, hy, h⟩ => (Option.some.inj hy) ▸ h, fun h => ⟨x, rfl, h⟩⟩

section Answers

variable [Add V] [SMul ℚ V]

/-- the status of a request; a reset is not answered -/
def code (M : Precond V) (s : LdfVfiService V) : Op V → Option StatusCode
  | .createSession request id faults => codeOf ((LdfVfiService.createSession request id faults).run s).1
  | .interpolateChunk request => codeOf ((LdfVfiService.interpolateChunk M request).run s).1
  | .destroySession id => codeOf ((LdfVfiService.destroySession id).run s).1
  | _ => none

/-- **The session check and one operation.** Afterwards id is accepted if the operation created it, or if it was accepted
before and the operation does not give it up. -/
theorem accepts_step (M : Precond V) (id : String) (s : LdfVfiService V) (o : Op V) (hs : Named s) :
    Accepts (step M s o) id ↔ Creates s id o ∨ (Accepts s id ∧ ¬ Ends id o) := by
  cases o with
  | createSession request sessionId faults =>
    simp only [Creates, Ends, step]
    rcases createSession_outcome request sessionId faults hs with
        ⟨hv, msg, hrun⟩ | ⟨hv, -, g, hrun⟩ | ⟨hv, -, st, os', hrun, -⟩
    · rw [hrun]
      simp [hv]
    · rw [hrun, accepts_some]
      simp [VfiSession.fresh, hv]
    · rw [hrun]
      refine iff_of_false accepts_none ?_
      simp [hv]
  | interpolateChunk request =>
    simp only [Creates, Ends, false_or, not_false_iff, and_true, step]
    rcases interpolateChunk_outcome M request s with ⟨-, msg, h⟩ | ⟨-, msg, h⟩ | ⟨-, x, r, b, reply, hx, h, -⟩
    · rw [h]
    · rw [h]
    · rw [h, accepts_some]
      simp [Accepts, hx]
  | destroySession id' =>
    simp only [Creates, Ends, false_or, step]
    rcases destroySession_outcome id' hs with ⟨ha, msg, h⟩ | ⟨ha, h⟩
    · rw [h]
      exact ⟨fun h => ⟨h, fun hid => ha (hid ▸ h)⟩, And.left⟩
    · rw [h]
      apply iff_of_false accepts_none
      intro hacc
      obtain ⟨x, hx, hid⟩ := ha
      obtain ⟨y, hy, hid'⟩ := hacc.1
      rw [hx] at hy
      cases hy
      exact hacc.2 (hid.symm.trans hid')
  | reset =>
    rw [step, reset_run hs]
    exact iff_of_false accepts_none (by simp [Creates, Ends])
  | stage bytes =>
    simp only [Creates, Ends, false_or, not_false_iff, and_true, step]
    simp [Accepts, VfiSession.stage]
  | other name link =>
    simp only [Creates, Ends, false_or, not_false_iff, and_true]
    exact Iff.rfl

/-- an InterpolateChunk passes the session check exactly when the slot holds its session -/
theorem code_interpolateChunk (M : Precond V) (s : LdfVfiService V) (request : InterpolateChunkRequest V) :
    code M s (.interpolateChunk request) ≠ some .notFound ↔ Accepts s request.sessionId := by
  simp only [code]
  rcases interpolateChunk_outcome M request s with
      ⟨ha, msg, h⟩ | ⟨ha, msg, h⟩ | ⟨ha, x, r, b, reply, hx, h, hcode⟩
  · exact iff_of_false (fun hne => hne (by rw [h]; rfl)) ha
  · rw [h]
    exact iff_of_true (by simp [codeOf]) ha
  · rw [h]
    refine iff_of_true ?_ ha
    cases reply with
    | ok response => simp [codeOf]
    | error status =>
      rcases hcode status rfl with h | h
      · simp [codeOf, h]
      · simp [codeOf, h]

/-- a DestroySession passes the session check exactly when the slot holds its session -/
theorem code_destroySession (M : Precond V) {s : LdfVfiService V} (hs : Named s) (id : String) :
    code M s (.destroySession id) ≠ some .notFound ↔ Accepts s id := by
  simp only [code]
  rcases destroySession_outcome id hs with ⟨ha, msg, h⟩ | ⟨ha, h⟩
  · exact iff_of_false (fun hne => hne (by rw [h]; rfl)) ha
  · rw [h]
    exact iff_of_true (by simp [codeOf]) ha

/-- **A refused call changes nothing.** -/
theorem refused_unchanged (M : Precond V) {s : LdfVfiService V} (hs : Named s) {o : Op V} (ho : o.NoValueError)
    (h : code M s o = some .notFound ∨ code M s o = some .invalidArgument) : step M s o = s := by
  cases o with
  | createSession request id faults =>
    simp only [code] at h
    rw [step]
    rcases createSession_outcome request id faults hs with
        ⟨-, msg, hrun⟩ | ⟨-, -, g, hrun⟩ | ⟨-, -, st, os', hrun, hcode, -⟩
    · rw [hrun]
    · rw [hrun] at h
      simp [codeOf] at h
    · rw [hrun] at h
      simp [codeOf, hcode ho] at h
  | interpolateChunk request =>
    simp only [code] at h
    rw [step]
    rcases interpolateChunk_outcome M request s with
        ⟨-, msg, hrun⟩ | ⟨-, msg, hrun⟩ | ⟨-, x, r, b, reply, hx, hrun, hcode⟩
    · rw [hrun]
    · rw [hrun]
    · rw [hrun] at h
      cases reply with
      | ok response => simp [codeOf] at h
      | error status =>
        rcases hcode status rfl with hst | hst
        · simp [codeOf, hst] at h
        · simp [codeOf, hst] at h
  | destroySession id =>
    simp only [code] at h
    rw [step]
    rcases destroySession_outcome id hs with ⟨-, msg, hrun⟩ | ⟨-, hrun⟩
    · rw [hrun]
    · rw [hrun] at h
      simp [codeOf] at h
  | reset => simp [code] at h
  | stage bytes => simp [code] at h
  | other name link => simp [code] at h

/-! ## Runs -/

/-- the service after a list of operations -/
def after (M : Precond V) (ops : List (Op V)) : LdfVfiService V := run (step M) (LdfVfiService.init V) ops

theorem after_named (M : Precond V) (ops : List (Op V)) : Named (after M ops) :=
  run_inv (step_named M) (named_init V) ops

/-- a CreateSession among the operations returned this id -/
def Issued (M : Precond V) (id : String) (ops : List (Op V)) : Prop :=
  ∃ pre o post, ops = pre ++ o :: post ∧ Creates (after M pre) id o

/-- a CreateSession among the operations returned this id, and no operation since has given it up; in particular no other
CreateSession has succeeded since -/
def LastCreated (M : Precond V) (id : String) (ops : List (Op V)) : Prop :=
  ∃ pre o post, ops = pre ++ o :: post ∧ Creates (after M pre) id o ∧ ∀ o' ∈ post, ¬ Ends id o'

theorem accepts_iff (M : Precond V) (id : String) (ops : List (Op V)) :
    Accepts (after M ops) id ↔ LastCreated M id ops :=
  since_iff (P := fun s => Accepts s id) (step_named M) (accepts_step M id) (named_init V) accepts_none ops

/-- an id that was issued and is not accepted stays so: no later operation can create it again -/
theorem never_again (M : Precond V) {id : String} {pre : List (Op V)} (hissued : Issued M id pre)
    (hno : ¬ Accepts (after M pre) id) (mid : List (Op V)) (hfresh : FreshIds (pre ++ mid)) :
    ¬ Accepts (after M (pre ++ mid)) id := by
  induction mid using List.reverseRecOn with
  | nil => rwa [List.append_nil]
  | append_singleton mid o ih =>
    rw [← List.append_assoc] at hfresh ⊢
    obtain ⟨hpre, -, hlast⟩ := List.pairwise_append.1 hfresh
    have hnamed := after_named M (pre ++ mid)
    rw [after, run_snoc]
    intro hacc
    rcases (accepts_step M id _ o hnamed).1 hacc with hcreates | ⟨hacc, -⟩
    · obtain ⟨a, o₁, b, rfl, hfirst⟩ := hissued
      exact hlast o₁ (by simp) o (List.mem_singleton_self o) id (creates_draws (after_named M a) hfirst)
        (creates_draws hnamed hcreates)
    · exact ih hpre hacc

/-- **Session isolation.** At every point of every interleaving of requests and resets, with fresh ids and no ValueError
among the failures: an InterpolateChunk or a DestroySession passes the session check exactly when it carries the id of the
last successful CreateSession and nothing since has given that session up; an issued id that is not accepted is never
accepted again; and a call that ends in NOT_FOUND or INVALID_ARGUMENT leaves the service and its segments as they were. -/
theorem session_isolation (M : Precond V) (ops : List (Op V)) (hfresh : FreshIds ops)
    (hfaults : ∀ o ∈ ops, o.NoValueError) (pre post : List (Op V)) (hops : ops = pre ++ post) :
    (∀ request, code M (after M pre) (.interpolateChunk request) ≠ some .notFound ↔
      LastCreated M request.sessionId pre) ∧
    (∀ id, code M (after M pre) (.destroySession id) ≠ some .notFound ↔ LastCreated M id pre) ∧
    (∀ id, Issued M id pre → ¬ Accepts (after M pre) id → ∀ mid post', post = mid ++ post' →
      ¬ Accepts (after M (pre ++ mid)) id) ∧
    (∀ o post', post = o :: post' → code M (after M pre) o = some .notFound ∨
      code M (after M pre) o = some .invalidArgument → step M (after M pre) o = after M pre) := by
  have hnamed := after_named M pre
  refine ⟨?_, ?_, ?_, ?_⟩
  · intro request
    rw [code_interpolateChunk, accepts_iff]
  · intro id
    rw [code_destroySession M hnamed, accepts_iff]
  · rintro id hissued hno mid post' rfl
    rw [hops, ← List.append_assoc] at hfresh
    exact never_again M hissued hno mid (List.pairwise_append.1 hfresh).1
  · rintro o post' rfl h
    exact refused_unchanged M hnamed (hfaults o (by simp [hops])) h

end Answers

/-! ## Two clients -/

def otherId : SessionId := ⟨"ba9876543210", by decide⟩

/-- one client creates a session, then another one does -/
def twoClients : List (Op Unit) :=
  [.createSession request32 someId SessionFaults.none, .createSession request32 otherId SessionFaults.none]

/-- where nothing fails, a session is created -/
theorem creates_none {s : LdfVfiService V} (hs : Named s) (id : SessionId) :
    Creates s id.val (.createSession request32 id SessionFaults.none) := by
  have hopens : ∀ b, opens b (fun _ => none) = true := by decide
  rcases createSession_outcome request32 id SessionFaults.none hs with
      ⟨hv, -⟩ | ⟨-, -, g, hrun⟩ | ⟨-, hc, -⟩
  · exact absurd request32_valid hv
  · exact congrArg Prod.fst hrun
  · exact absurd ⟨rfl, hopens _, hopens _⟩ hc

theorem first_not_accepted : ¬ Accepts (after mockModel twoClients) someId.val := by
  intro hacc
  have hnamed := after_named mockModel [.createSession request32 someId SessionFaults.none]
  have hstep := accepts_step mockModel someId.val _ (.createSession request32 otherId SessionFaults.none) hnamed
  rcases hstep.1 hacc with hcreates | ⟨-, hends⟩
  · exact absurd (creates_draws hnamed hcreates).2 (by decide)
  · exact hends request32_valid

/-- the second client preempts the first, whose chunk is refused and whose id stays so -/
theorem first_client_preempted :
    ¬ Accepts (after mockModel (twoClients ++ [.interpolateChunk ⟨someId.val, 0, 1, false, quiet⟩])) someId.val := by
  have hissued : Issued mockModel someId.val twoClients := ⟨[], _, _, rfl, creates_none (named_init Unit) someId⟩
  have hfresh : FreshIds (twoClients ++ [.interpolateChunk ⟨someId.val, 0, 1, false, quiet⟩]) := by
    rw [twoClients, List.cons_append, List.cons_append, List.nil_append]
    refine List.pairwise_cons.2 ⟨?_, List.pairwise_cons.2 ⟨?_, List.pairwise_singleton _ _⟩⟩
    · simp only [List.mem_cons, List.not_mem_nil, or_false]
      rintro o (rfl | rfl) i ⟨-, hid⟩
      · exact fun h => absurd (hid.trans h.2.symm) (by decide)
      · exact id
    · simp only [List.mem_cons, List.not_mem_nil, or_false]
      rintro o rfl i -
      exact id
  have hfaults : ∀ o ∈ twoClients ++ [.interpolateChunk ⟨someId.val, 0, 1, false, quiet⟩], o.NoValueError := by
    have hnone : SessionFaults.none.NoValueError := ⟨by simp [SessionFaults.none], by simp [SessionFaults.none],
      by simp [SessionFaults.none]⟩
    simp [twoClients, Op.NoValueError, hnone]
  have h := session_isolation mockModel _ hfresh hfaults twoClients _ rfl
  exact h.2.2.1 someId.val hissued first_not_accepted _ [] (List.append_nil _).symm

end Viduce.Service
