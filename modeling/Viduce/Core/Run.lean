/-
Runs of a deterministic machine: a step function `σ → ι → σ` folded over a list of inputs. Nothing here names a
program; a development instantiates `σ`, `ι` and `step`.

- `run_inv`: an invariant of one step is an invariant of every run.
- `run_inv_of`: the same when the step only keeps the invariant on inputs that are `good` in the state they meet.
- `always_iff_along`: if, from states with the invariant, a step keeps it exactly on the good inputs, then the
  invariant holds in every state of a run exactly when every input of the run was good where it was taken.
- `along_iff_along`: if good inputs keep the invariant, and under it an input does what is asked exactly when it is good,
  then all inputs of a run do so exactly when all are good.
- `Since`, `iff_since`: a property that some inputs set and others clear holds after a run exactly when it was set and no
  later input cleared it; `since_iff` is the same for inputs that clear it in every state.
- `stateAt`: the states of a run driven by an indexed schedule, for results that speak about call number k.
- `stateAt_sim`: two machines kept in a relation by each step stay in it along a schedule.
-/
import Mathlib.Tactic

namespace Viduce.Run

variable {σ ι : Type}

/-- the state after a list of inputs -/
def run (step : σ → ι → σ) (s : σ) (l : List ι) : σ := l.foldl step s

@[simp] theorem run_nil (step : σ → ι → σ) (s : σ) : run step s [] = s := rfl

theorem run_cons (step : σ → ι → σ) (s : σ) (o : ι) (l : List ι) :
    run step s (o :: l) = run step (step s o) l := rfl

theorem run_append (step : σ → ι → σ) (s : σ) (a b : List ι) :
    run step s (a ++ b) = run step (run step s a) b := by
  simp [run, List.foldl_append]

theorem run_snoc (step : σ → ι → σ) (s : σ) (l : List ι) (o : ι) :
    run step s (l ++ [o]) = step (run step s l) o := by
  simp [run, List.foldl_append]

/-- every input of the run was good in the state that took it -/
def Along (step : σ → ι → σ) (good : σ → ι → Prop) (s : σ) (l : List ι) : Prop :=
  ∀ pre o post, l = pre ++ o :: post → good (run step s pre) o

/-- the invariant holds in every state of the run, the first and the last included -/
def Always (step : σ → ι → σ) (P : σ → Prop) (s : σ) (l : List ι) : Prop :=
  ∀ pre post, l = pre ++ post → P (run step s pre)

theorem along_snoc {step : σ → ι → σ} {good : σ → ι → Prop} {s : σ} {l : List ι} {o : ι} :
    Along step good s (l ++ [o]) ↔ Along step good s l ∧ good (run step s l) o := by
  refine ⟨?_, ?_⟩
  · intro h
    refine ⟨fun pre x post e => h pre x (post ++ [o]) (by simp [e]), h l o [] rfl⟩
  · rintro ⟨h, ho⟩ pre x post e
    rcases List.eq_nil_or_concat post with rfl | ⟨post', y, rfl⟩
    · obtain ⟨rfl, hx⟩ := List.append_inj' e rfl
      simp only [List.cons.injEq, and_true] at hx
      exact hx ▸ ho
    · rw [List.concat_eq_append, ← List.cons_append, ← List.append_assoc] at e
      exact h pre x post' (List.append_inj_left' e rfl)

theorem along_cons {step : σ → ι → σ} {good : σ → ι → Prop} {s : σ} {l : List ι} {o : ι} :
    Along step good s (o :: l) ↔ good s o ∧ Along step good (step s o) l := by
  refine ⟨?_, ?_⟩
  · intro h
    exact ⟨h [] o l rfl, fun pre x post e => h (o :: pre) x post (by rw [e, List.cons_append])⟩
  · intro h pre x post e
    cases pre with
    | nil =>
      obtain ⟨rfl, -⟩ := List.cons.inj e
      exact h.1
    | cons y pre =>
      obtain ⟨rfl, e'⟩ := List.cons.inj e
      exact h.2 pre x post e'

theorem along_nil (step : σ → ι → σ) (good : σ → ι → Prop) (s : σ) : Along step good s [] :=
  fun pre o post e => by simp at e

theorem always_snoc {step : σ → ι → σ} {P : σ → Prop} {s : σ} {l : List ι} {o : ι} :
    Always step P s (l ++ [o]) ↔ Always step P s l ∧ P (run step s (l ++ [o])) := by
  refine ⟨?_, ?_⟩
  · intro h
    exact ⟨fun pre post e => h pre (post ++ [o]) (by simp [e]), h (l ++ [o]) [] (by simp)⟩
  · rintro ⟨h, ho⟩ pre post e
    rcases List.eq_nil_or_concat post with rfl | ⟨post', y, rfl⟩
    · rw [List.append_nil] at e; exact e ▸ ho
    · rw [List.concat_eq_append, ← List.append_assoc] at e
      exact h pre post' (List.append_inj_left' e rfl)

/-- an invariant of one step holds after every run -/
theorem run_inv {step : σ → ι → σ} {P : σ → Prop} (hstep : ∀ s o, P s → P (step s o)) {s : σ} (hs : P s)
    (l : List ι) : P (run step s l) := by
  induction l generalizing s with
  | nil => exact hs
  | cons o l ih => exact ih (hstep s o hs)

/-- the invariant rule for a step that keeps the invariant on good inputs only -/
theorem run_inv_of {step : σ → ι → σ} {P : σ → Prop} {good : σ → ι → Prop}
    (hstep : ∀ s o, P s → good s o → P (step s o)) {s : σ} (hs : P s) {l : List ι} (hl : Along step good s l) :
    P (run step s l) := by
  induction l using List.reverseRecOn with
  | nil => exact hs
  | append_singleton l o ih =>
    obtain ⟨h, ho⟩ := along_snoc.1 hl
    rw [run_snoc]
    exact hstep _ o (ih h) ho

/-- **Exact condition for an invariant.** If a step keeps the invariant exactly on the good inputs, the invariant
holds all along a run exactly when every input was good where it was taken. -/
theorem always_iff_along {step : σ → ι → σ} {P : σ → Prop} {good : σ → ι → Prop}
    (hstep : ∀ s o, P s → (P (step s o) ↔ good s o)) {s : σ} (hs : P s) (l : List ι) :
    Always step P s l ↔ Along step good s l := by
  induction l using List.reverseRecOn with
  | nil =>
    refine ⟨fun _ => along_nil step good s, ?_⟩
    intro _ pre post e
    obtain ⟨rfl, -⟩ := List.append_eq_nil_iff.1 e.symm
    exact hs
  | append_singleton l o ih =>
    rw [always_snoc, along_snoc, run_snoc, ih]
    apply and_congr_right
    intro h
    exact hstep _ o (run_inv_of (fun s o hs => (hstep s o hs).2) hs h)

/-- **Exact condition for every step.** If good inputs keep the invariant, and under it the inputs that do what is asked are
exactly the good ones, then all inputs of a run do so exactly when all are good where they are taken. -/
theorem along_iff_along {step : σ → ι → σ} {P : σ → Prop} {good Q : σ → ι → Prop}
    (hkeep : ∀ s o, P s → good s o → P (step s o)) (hiff : ∀ s o, P s → (Q s o ↔ good s o)) {s : σ} (hs : P s)
    (l : List ι) : Along step Q s l ↔ Along step good s l := by
  induction l using List.reverseRecOn with
  | nil => exact iff_of_true (along_nil step Q s) (along_nil step good s)
  | append_singleton l o ih =>
    rw [along_snoc, along_snoc, ih]
    apply and_congr_right
    intro h
    exact hiff _ o (run_inv_of hkeep hs h)

/-- an invariant of every step may be added to a property all along a run -/
theorem always_and {step : σ → ι → σ} {P Q : σ → Prop} (hstep : ∀ s o, Q s → Q (step s o)) {s : σ} (hs : Q s)
    (l : List ι) : Always step (fun s => P s ∧ Q s) s l ↔ Always step P s l :=
  ⟨fun h pre post e => (h pre post e).1, fun h pre post e => ⟨h pre post e, run_inv hstep hs pre⟩⟩

/-- some input of the run set the property, and none after it cleared it -/
def Since (step : σ → ι → σ) (sets clears : σ → ι → Prop) (s : σ) (l : List ι) : Prop :=
  ∃ pre o post, l = pre ++ o :: post ∧ sets (run step s pre) o ∧
    Along step (fun s o => ¬ clears s o) (run step s (pre ++ [o])) post

theorem since_nil (step : σ → ι → σ) (sets clears : σ → ι → Prop) (s : σ) : ¬ Since step sets clears s [] := by
  simp [Since]

theorem since_snoc {step : σ → ι → σ} {sets clears : σ → ι → Prop} {s : σ} {l : List ι} {o : ι} :
    Since step sets clears s (l ++ [o]) ↔
      sets (run step s l) o ∨ (Since step sets clears s l ∧ ¬ clears (run step s l) o) := by
  have hlast : ∀ pre x post, run step (run step s (pre ++ [x])) post = run step s (pre ++ x :: post) := by
    intro pre x post
    rw [← run_append, List.append_assoc]
    rfl
  constructor
  · intro h
    obtain ⟨pre, x, post, e, hset, hpost⟩ := h
    -- the setting input is the last one of the run, or an earlier one
    rcases List.eq_nil_or_concat post with rfl | ⟨post', y, rfl⟩
    · obtain ⟨rfl, hx⟩ := List.append_inj' e rfl
      simp only [List.cons.injEq, and_true] at hx
      exact Or.inl (hx ▸ hset)
    · rw [List.concat_eq_append, ← List.cons_append, ← List.append_assoc] at e
      obtain ⟨rfl, hy⟩ := List.append_inj' e rfl
      simp only [List.cons.injEq, and_true] at hy
      rw [List.concat_eq_append, along_snoc, hlast] at hpost
      exact Or.inr ⟨⟨pre, x, post', rfl, hset, hpost.1⟩, hy ▸ hpost.2⟩
  · intro h
    rcases h with hset | ⟨⟨pre, x, post, rfl, hset, hpost⟩, ho⟩
    · exact ⟨l, o, [], rfl, hset, along_nil _ _ _⟩
    · refine ⟨pre, x, post ++ [o], by simp, hset, along_snoc.2 ⟨hpost, ?_⟩⟩
      rwa [hlast]

theorem since_or {step : σ → ι → σ} {sets sets' clears : σ → ι → Prop} {s : σ} {l : List ι} :
    Since step (fun s o => sets s o ∨ sets' s o) clears s l ↔ Since step sets clears s l ∨ Since step sets' clears s l := by
  simp only [Since, or_and_right, and_or_left, exists_or]

/-- **Set and not cleared since.** If a step sets the property, clears it or keeps it, and it does not hold at first, then
it holds after a run exactly when some input set it and no input after that one cleared it. -/
theorem iff_since {step : σ → ι → σ} {P Q : σ → Prop} {sets clears : σ → ι → Prop}
    (hQ : ∀ s o, Q s → Q (step s o)) (hstep : ∀ s o, Q s → (P (step s o) ↔ sets s o ∨ (P s ∧ ¬ clears s o))) {s : σ}
    (hs : Q s) (h0 : ¬ P s) (l : List ι) : P (run step s l) ↔ Since step sets clears s l := by
  induction l using List.reverseRecOn with
  | nil => exact iff_of_false h0 (since_nil step sets clears s)
  | append_singleton l o ih => rw [run_snoc, hstep _ o (run_inv hQ hs l), ih, since_snoc]

/-- the same for inputs that clear the property wherever they are taken -/
theorem since_iff {step : σ → ι → σ} {P Q : σ → Prop} {sets : σ → ι → Prop} {clears : ι → Prop}
    (hQ : ∀ s o, Q s → Q (step s o)) (hstep : ∀ s o, Q s → (P (step s o) ↔ sets s o ∨ (P s ∧ ¬ clears o))) {s : σ}
    (hs : Q s) (h0 : ¬ P s) (l : List ι) :
    P (run step s l) ↔
      ∃ pre o post, l = pre ++ o :: post ∧ sets (run step s pre) o ∧ ∀ o' ∈ post, ¬ clears o' := by
  have hconst : ∀ s post, Along step (fun _ o => ¬ clears o) s post ↔ ∀ o' ∈ post, ¬ clears o' := by
    intro s post
    constructor
    · intro h o' ho'
      obtain ⟨a, b, rfl⟩ := List.append_of_mem ho'
      exact h a o' b rfl
    · intro h a o' b e
      exact h o' (by simp [e])
  have hsince : P (run step s l) ↔ Since step sets (fun _ => clears) s l := iff_since hQ hstep hs h0 l
  rw [hsince]
  simp only [Since, hconst]

/-! ## Indexed schedules -/

/-- the state in which input number n of the schedule is taken -/
def stateAt (step : σ → ι → σ) (s : σ) (ops : ℕ → ι) : ℕ → σ
  | 0 => s
  | n + 1 => step (stateAt step s ops n) (ops n)

/-- a relation that each of the first n steps of two machines keeps relates them after these steps -/
theorem stateAt_sim {τ κ : Type} {step : σ → ι → σ} {step' : τ → κ → τ} {R : σ → τ → Prop} {ops : ℕ → ι}
    {ops' : ℕ → κ} {s : σ} {t : τ} (h : R s t) {n : ℕ}
    (hstep : ∀ k < n, ∀ s t, R s t → R (step s (ops k)) (step' t (ops' k))) :
    R (stateAt step s ops n) (stateAt step' t ops' n) := by
  induction n with
  | zero => exact h
  | succ n ih => exact hstep n (by omega) _ _ (ih fun k hk => hstep k (by omega))

end Viduce.Run
