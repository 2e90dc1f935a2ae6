/-
Which shared-memory segments the service has linked. A session's constructor takes the input segment and then the output
segment before the session reaches the slot, and cleanup goes through the slot alone.

- `step_exact`: a call keeps the service's segments equal to the active session's, unless it is a CreateSession that
  opens the input segment and then fails to open the output segment.
- `exact_iff`: over every run, the segments are exactly the active session's after each call precisely when no such
  CreateSession occurs.
- `writer_failure_leaks`: one such call leaves the input segment linked with no session.
-/
import Mathlib.Tactic
import Viduce.Daemon.MockModel
import Viduce.Daemon.Service

namespace Viduce.Service

open Viduce.Run Viduce.SessionRunner Viduce.Shm Viduce.Session

variable {V : Type}

/-! ## The ledger -/

/-- the segments that go with the slot -/
def ledger (s : LdfVfiService V) : Set String :=
  match s.activeSession with
  | none => ∅
  | some x => {inputName x.sessionId, outputName x.sessionId}

/-- the service has created and not unlinked exactly the active session's segments -/
def Exact (s : LdfVfiService V) : Prop := s.os.own = ledger s

/-- a CreateSession past its checks that opens the input segment and fails to open the output segment -/
def LeakingCreate (s : LdfVfiService V) : Op V → Prop
  | .createSession request id faults => request.Valid ∧ Leaks s.clearedOs id.val faults
  | _ => False

theorem own_link (os : Os) (name : String) : Os.own (Function.update os name (some .service)) = insert name os.own := by
  ext n
  by_cases h : n = name
  · simp [Os.own, h]
  · simp [Os.own, h]

theorem own_unlink (os : Os) (name : String) : Os.own (Function.update os name none) = os.own \ {name} := by
  ext n
  by_cases h : n = name
  · simp [Os.own, h]
  · simp [Os.own, h]

theorem own_other (name : String) (link : Bool) (os : Os) : (otherProcess name link os).own = os.own := by
  unfold otherProcess
  split_ifs with h
  · rfl
  · ext n
    by_cases hn : n = name
    · subst hn
      simpa [Os.own] using h
    · simp [Os.own, hn]
  · rw [own_unlink]
    exact Set.sdiff_singleton_eq_self h

/-- unlinking the active session's names leaves the service without segments -/
theorem own_cleared {s : LdfVfiService V} (hs : Exact s) : s.clearedOs.own = ∅ := by
  unfold Exact ledger at hs
  unfold LdfVfiService.clearedOs
  split <;> rename_i h
  · rw [h] at hs
    exact hs
  · rw [h] at hs
    rw [own_unlink, own_unlink, hs]
    ext n
    simp

section Steps

variable [Add V] [SMul ℚ V]

/-- a CreateSession keeps the segments exact unless it leaves the input segment linked and the slot empty -/
theorem create_exact (M : Precond V) {s : LdfVfiService V} (hn : Named s) (hs : Exact s) (request : CreateSessionRequest)
    (id : SessionId) (faults : SessionFaults) :
    Exact (step M s (.createSession request id faults)) ↔ ¬ LeakingCreate s (.createSession request id faults) := by
  have hcleared := own_cleared hs
  rw [step]
  rcases createSession_outcome request id faults hn with
      ⟨hv, msg, h⟩ | ⟨-, hc, g, h⟩ | ⟨hv, -, st, os', h, -, hleft⟩
  · rw [h]
    exact iff_of_true hs fun hl => hv hl.1
  · rw [h]
    apply iff_of_true
    · simp only [Exact, ledger, linkBoth, own_link, hcleared]
      ext n
      simp [VfiSession.fresh, or_comm]
    · intro hl
      exact absurd (hl.2.2.2.symm.trans hc.2.2) (by decide)
  · rw [h]
    by_cases hl : Leaks s.clearedOs id.val faults
    · refine iff_of_false (fun hex => ?_) fun hno => hno ⟨hv, hl⟩
      -- the input segment is linked, and the slot is empty
      have hmem : inputName id.val ∈ Os.own os' := by
        rcases hleft.leak hl with rfl | rfl
        · rw [own_link]
          exact Set.mem_insert _ _
        · rw [own_unlink, own_link]
          exact ⟨Set.mem_insert _ _, inputName_ne_outputName _ _⟩
      rw [show os'.own = ∅ from hex] at hmem
      exact hmem
    · refine iff_of_true ?_ fun hl' => hl hl'.2
      show os'.own = ∅
      rcases hleft.clean hl with rfl | rfl
      · exact hcleared
      · rw [own_unlink, hcleared, Set.empty_sdiff]

/-- **One call and the ledger.** It keeps the segments exact unless it is a leaking CreateSession. -/
theorem step_exact (M : Precond V) {s : LdfVfiService V} (hn : Named s) (hs : Exact s) (o : Op V) :
    Exact (step M s o) ↔ ¬ LeakingCreate s o := by
  have hcleared := own_cleared hs
  cases o with
  | createSession request id faults =>
    exact create_exact M hn hs request id faults
  | interpolateChunk request =>
    refine iff_of_true ?_ id
    rw [step]
    rcases interpolateChunk_outcome M request s with ⟨-, msg, h⟩ | ⟨-, msg, h⟩ | ⟨-, x, r, b, reply, hx, h, -⟩
    · rwa [h]
    · rwa [h]
    · rw [h]
      unfold Exact ledger at hs ⊢
      rwa [hx] at hs
  | destroySession id =>
    refine iff_of_true ?_ fun h => h
    rw [step]
    rcases destroySession_outcome id hn with ⟨-, msg, h⟩ | ⟨-, h⟩
    · rwa [h]
    · rw [h]
      exact hcleared
  | reset =>
    refine iff_of_true ?_ fun h => h
    rw [step, reset_run hn]
    exact hcleared
  | stage bytes =>
    refine iff_of_true ?_ fun h => h
    unfold Exact ledger at hs ⊢
    rw [step]
    cases hx : s.activeSession with
    | none => rwa [hx] at hs
    | some x => rwa [hx] at hs
  | other name link =>
    refine iff_of_true ?_ fun h => h
    show (otherProcess name link s.os).own = ledger s
    rw [own_other]
    exact hs

theorem exact_init (V : Type) : Exact (LdfVfiService.init V) := by
  ext n
  simp [LdfVfiService.init, Os.own, ledger]

/-- a run without a leaking CreateSession ends with exactly the active session's segments -/
theorem exact_run (M : Precond V) {ops : List (Op V)}
    (h : Along (step M) (fun s o => ¬ LeakingCreate s o) (LdfVfiService.init V) ops) :
    Exact (run (step M) (LdfVfiService.init V) ops) := by
  refine (run_inv_of (P := fun s => Exact s ∧ Named s) (fun s o hs ho => ?_) ⟨exact_init V, named_init V⟩ h).1
  exact ⟨(step_exact M hs.2 hs.1 o).2 ho, step_named M s o hs.2⟩

/-- **No leak, exactly.** From a service that has not been called, over every run of calls, with every choice of requests,
ids and failures: the service's segments are exactly the active session's after each call precisely when no CreateSession
opened its input segment and failed to open its output segment. -/
theorem exact_iff (M : Precond V) (ops : List (Op V)) :
    Always (step M) Exact (LdfVfiService.init V) ops ↔
      Along (step M) (fun s o => ¬ LeakingCreate s o) (LdfVfiService.init V) ops := by
  rw [← always_and (step_named M) (named_init V)]
  refine always_iff_along (fun s o hs => ?_) ⟨exact_init V, named_init V⟩ ops
  rw [step_exact M hs.2 hs.1 o |>.symm]
  exact ⟨fun h => h.1, fun h => ⟨h, step_named M s o hs.2⟩⟩

end Steps

/-! ## A leak -/

/-- the output segment cannot be created -/
def writerFails : SessionFaults :=
  ⟨none, fun _ => none, fun _ => some ⟨.other, "[Errno 28] No space left on device"⟩⟩

/-- **A leak.** The output segment cannot be created, and the input segment stays linked with no session to own it. -/
theorem writer_failure_leaks :
    ¬ Always (step mockModel) Exact (LdfVfiService.init Unit) [.createSession request32 someId writerFails] ∧
      (step mockModel (LdfVfiService.init Unit) (.createSession request32 someId writerFails)).activeSession = none ∧
      (step mockModel (LdfVfiService.init Unit) (.createSession request32 someId writerFails)).os
        "/viduce_0123456789ab_in" = some .service := by
  have hleak : LeakingCreate (LdfVfiService.init Unit) (.createSession request32 someId writerFails) :=
    ⟨request32_valid, rfl, rfl, rfl⟩
  rcases createSession_outcome request32 someId writerFails (named_init Unit) with
      ⟨hv, -⟩ | ⟨-, hc, -⟩ | ⟨-, -, st, os', h, -, hleft⟩
  · exact absurd hleak.1 hv
  · exact absurd (hleak.2.2.2.symm.trans hc.2.2) (by decide)
  · refine ⟨?_, by rw [step, h], ?_⟩
    · intro hall
      have hstep := hall [.createSession request32 someId writerFails] [] rfl
      rw [run_cons, run_nil] at hstep
      exact (step_exact mockModel (named_init Unit) (exact_init Unit) _).1 hstep hleak
    · rw [step, h, show "/viduce_0123456789ab_in" = inputName someId.val by decide]
      rcases hleft.leak hleak.2 with rfl | rfl
      · simp
      · simp [inputName_ne_outputName]

end Viduce.Service
