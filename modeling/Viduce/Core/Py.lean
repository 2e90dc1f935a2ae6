/-
Python computations over a mutable object: `Py σ α` runs on the object's state and either returns or raises. A raise
keeps the state as the statements before it left it: there is no rollback. Nothing here names a program.

`run_bind` is the sequencing rule; `ofExcept` embeds pure code that may raise; `tryExcept` and `attempt` are
`try`/`except`; `zoom` runs code of a component; `each` is a comprehension.
`forRange_upto`, `forRange_ok` and `forRange_all` are the rules of a `for i in range(n)` loop whose body may raise;
`forGrid_ok` is the rule of two nested loops that assign the entries of a table in turn.
-/
import Mathlib.Tactic

namespace Viduce

/-- the exception classes that handlers tell apart; any other class is `other` -/
inductive ExcKind where
  | valueError
  | runtimeError
  | attributeError
  | indexError
  | notImplementedError
  | fileExistsError
  | fileNotFoundError
  | outOfMemoryError
  | other
deriving DecidableEq, Repr

/-- a raised exception and its text -/
structure PyErr where
  kind : ExcKind
  msg : String
deriving DecidableEq, Repr

/-- code that may raise, over a mutable state -/
def Py (σ α : Type) : Type := σ → Except PyErr α × σ

namespace Py

variable {σ α β : Type}

/-- the outcome and the state left behind -/
def run (x : Py σ α) (s : σ) : Except PyErr α × σ := x s

instance : Monad (Py σ) where
  pure a := fun s => (.ok a, s)
  bind x f := fun s =>
    match x s with
    | (.ok a, s') => f a s'
    | (.error e, s') => (.error e, s')

/-- reads the whole object -/
def get : Py σ σ := fun s => (.ok s, s)

/-- an assignment to the object's attributes -/
def modify (f : σ → σ) : Py σ Unit := fun s => (.ok (), f s)

def raise (e : PyErr) : Py σ α := fun s => (.error e, s)

/-- pure code that may raise -/
def ofExcept (r : Except PyErr α) : Py σ α := fun s => (r, s)

/-- `try x except: handler`; the handler runs on the state `x` left and may itself raise -/
def tryExcept (x : Py σ α) (handler : PyErr → Py σ α) : Py σ α := fun s =>
  match x s with
  | (.ok a, s') => (.ok a, s')
  | (.error e, s') => handler e s'

/-- `x` with its exception caught, for a `try` whose handlers tell exceptions apart -/
def attempt (x : Py σ α) : Py σ (Except PyErr α) := fun s => (.ok (x s).1, (x s).2)

/-- `[f(a) for a in l]` -/
def each (f : α → Py σ β) : List α → Py σ (List β)
  | [] => pure []
  | a :: l => do
    let b ← f a
    let bs ← each f l
    pure (b :: bs)

/-- runs `x` on the part of the object that `view` reads and `put` writes -/
def zoom {τ : Type} (view : σ → τ) (put : τ → σ → σ) (x : Py τ α) : Py σ α := fun s =>
  ((x (view s)).1, put (x (view s)).2 s)

@[simp] theorem run_pure (a : α) (s : σ) : (pure a : Py σ α).run s = (.ok a, s) := rfl

@[simp] theorem run_raise (e : PyErr) (s : σ) : (raise e : Py σ α).run s = (.error e, s) := rfl

/-- sequencing -/
theorem run_bind (x : Py σ α) (f : α → Py σ β) (s : σ) :
    (x >>= f).run s =
      match x.run s with
      | (.ok a, s') => (f a).run s'
      | (.error e, s') => (.error e, s') := rfl

theorem run_bind_ok {x : Py σ α} {s s' : σ} {a : α} (h : x.run s = (.ok a, s')) (f : α → Py σ β) :
    (x >>= f).run s = (f a).run s' := by
  rw [run_bind, h]

theorem run_bind_error {x : Py σ α} {s s' : σ} {e : PyErr} (h : x.run s = (.error e, s')) (f : α → Py σ β) :
    (x >>= f).run s = (.error e, s') := by
  rw [run_bind, h]

theorem bind_assoc {γ : Type} (x : Py σ α) (f : α → Py σ β) (g : β → Py σ γ) :
    (x >>= f) >>= g = x >>= fun a => f a >>= g := by
  funext s
  change ((x >>= f) >>= g).run s = (x >>= fun a => f a >>= g).run s
  rw [run_bind, run_bind, run_bind]
  cases hx : x.run s with
  | mk r s' => cases r <;> rfl

@[simp] theorem run_bind_get (f : σ → Py σ β) (s : σ) : (get >>= f).run s = (f s).run s := rfl

@[simp] theorem run_bind_modify (g : σ → σ) (f : Unit → Py σ β) (s : σ) :
    (modify g >>= f).run s = (f ()).run (g s) := rfl

/-- pure code in front of a statement: either it raises at once or the statement runs on the same state -/
theorem run_bind_ofExcept (r : Except PyErr α) (f : α → Py σ β) (s : σ) :
    (ofExcept r >>= f).run s =
      match r with
      | .ok a => (f a).run s
      | .error e => (.error e, s) := by
  cases r <;> rfl

theorem run_tryExcept (x : Py σ α) (handler : PyErr → Py σ α) (s : σ) :
    (tryExcept x handler).run s =
      match x.run s with
      | (.ok a, s') => (.ok a, s')
      | (.error e, s') => (handler e).run s' := rfl

theorem run_zoom {τ : Type} (view : σ → τ) (put : τ → σ → σ) (x : Py τ α) (s : σ) :
    (zoom view put x).run s = ((x.run (view s)).1, put (x.run (view s)).2 s) := rfl

/-- a bind after a caught computation always goes on -/
theorem run_bind_attempt (x : Py σ α) (f : Except PyErr α → Py σ β) (s : σ) :
    (attempt x >>= f).run s = (f (x.run s).1).run (x.run s).2 := rfl

theorem each_map {γ : Type} (f : β → Py σ γ) (g : α → β) (l : List α) : each f (l.map g) = each (fun a => f (g a)) l := by
  induction l with
  | nil => rfl
  | cons a l ih => rw [List.map_cons, each, each, ih]

/-- a comprehension whose items do not depend on what the ones before them left -/
theorem each_ok {f : α → Py σ β} {r : α → β} {l : List α} (h : ∀ a ∈ l, ∀ s, ∃ s', (f a).run s = (.ok (r a), s')) (s : σ) :
    ∃ s', (each f l).run s = (.ok (l.map r), s') := by
  induction l generalizing s with
  | nil => exact ⟨s, rfl⟩
  | cons a l ih =>
    obtain ⟨s₁, ha⟩ := h a List.mem_cons_self s
    obtain ⟨s₂, hl⟩ := ih (fun b hb => h b (List.mem_cons_of_mem a hb)) s₁
    refine ⟨s₂, ?_⟩
    rw [each, run_bind_ok ha, run_bind_ok hl]
    rfl

end Py

/-! ## Pure code that may raise -/

@[simp] theorem ok_bind {α β : Type} (a : α) (f : α → Except PyErr β) : (Except.ok a >>= f) = f a := rfl

@[simp] theorem error_bind {α β : Type} (e : PyErr) (f : α → Except PyErr β) :
    ((Except.error e : Except PyErr α) >>= f) = .error e := rfl

/-- a sequence that returned returned at each of its statements -/
theorem bind_eq_ok {α β : Type} {x : Except PyErr α} {f : α → Except PyErr β} {b : β} :
    (x >>= f) = .ok b ↔ ∃ a, x = .ok a ∧ f a = .ok b := by
  cases x with
  | error e => simp
  | ok a => simp

/-- a sequence that raised raised at one of its statements -/
theorem bind_eq_error {α β : Type} {x : Except PyErr α} {f : α → Except PyErr β} {e : PyErr} :
    (x >>= f) = .error e ↔ x = .error e ∨ ∃ a, x = .ok a ∧ f a = .error e := by
  cases x with
  | error e' => simp
  | ok a => simp

/-- a comprehension none of whose items raises -/
theorem mapM_ok {α β : Type} {f : α → Except PyErr β} {r : α → β} {l : List α} (h : ∀ a ∈ l, f a = .ok (r a)) :
    l.mapM f = .ok (l.map r) := by
  induction l with
  | nil => rfl
  | cons a l ih =>
    rw [List.mapM_cons, h a List.mem_cons_self, ih fun b hb => h b (List.mem_cons_of_mem _ hb)]
    rfl

/-! ## Loops -/

/-- `for i in range(n)` over a loop variable, the body may raise -/
def forRange {β : Type} (n : ℕ) (body : β → ℕ → Except PyErr β) (b : β) : Except PyErr β :=
  (List.range n).foldlM body b

/-- the loop rule, with an invariant that speaks about the iterations done -/
theorem forRange_upto {β : Type} {n : ℕ} {body : β → ℕ → Except PyErr β} {P : ℕ → β → Prop}
    (hbody : ∀ i < n, ∀ b, P i b → ∃ b', body b i = .ok b' ∧ P (i + 1) b') {b : β} (hb : P 0 b) :
    ∃ b', forRange n body b = .ok b' ∧ P n b' := by
  induction n with
  | zero => exact ⟨b, rfl, hb⟩
  | succ n ih =>
    obtain ⟨bn, hn, hP⟩ := ih fun i hi => hbody i (by omega)
    obtain ⟨b', h', hP'⟩ := hbody n (by omega) bn hP
    refine ⟨b', ?_, hP'⟩
    unfold forRange at hn ⊢
    rw [List.range_succ, List.foldlM_append, hn]
    exact (bind_pure (body bn n)).trans h'

/-- the loop rule: an invariant that every iteration can keep holds when the loop ends, and it does end -/
theorem forRange_ok {β : Type} {n : ℕ} {body : β → ℕ → Except PyErr β} {P : β → Prop}
    (hbody : ∀ i < n, ∀ b, P b → ∃ b', body b i = .ok b' ∧ P b') {b : β} (hb : P b) :
    ∃ b', forRange n body b = .ok b' ∧ P b' :=
  forRange_upto (P := fun _ => P) hbody hb

/-- a loop that ended normally ran each of its iterations normally -/
theorem forRange_all {β : Type} {n : ℕ} {body : β → ℕ → Except PyErr β} {b b' : β}
    (h : forRange n body b = .ok b') : ∀ i < n, ∃ a a', body a i = .ok a' := by
  induction n generalizing b' with
  | zero => exact fun i hi => absurd hi (Nat.not_lt_zero i)
  | succ n ih =>
    unfold forRange at h
    rw [List.range_succ, List.foldlM_append] at h
    cases hn : (List.range n).foldlM body b with
    | error e => rw [hn] at h; cases h
    | ok bn =>
      rw [hn] at h
      intro i hi
      rcases Nat.lt_succ_iff_lt_or_eq.1 hi with hlt | rfl
      · exact ih hn i hlt
      · exact ⟨bn, b', (bind_pure (body bn i)).symm.trans h⟩

/-- a loop that raised raised in one of its iterations -/
theorem forRange_error {β : Type} {n : ℕ} {body : β → ℕ → Except PyErr β} {b : β} {e : PyErr}
    (h : forRange n body b = .error e) : ∃ i < n, ∃ a, body a i = .error e := by
  induction n with
  | zero => cases h
  | succ n ih =>
    unfold forRange at h
    rw [List.range_succ, List.foldlM_append, bind_eq_error] at h
    rcases h with hn | ⟨bn, -, hlast⟩
    · obtain ⟨i, hi, a, ha⟩ := ih hn
      exact ⟨i, Nat.lt_succ_of_lt hi, a, ha⟩
    · exact ⟨n, Nat.lt_succ_self n, bn, (bind_pure (body bn n)).symm.trans hlast⟩

/-- `g[i][j] = a` -/
def setEntry {α : Type} (g : ℕ → ℕ → α) (i j : ℕ) (a : α) : ℕ → ℕ → α :=
  Function.update g i (Function.update (g i) j a)

theorem setEntry_apply {α : Type} (g : ℕ → ℕ → α) (i j : ℕ) (a : α) (i' j' : ℕ) :
    setEntry g i j a i' j' = if i' = i ∧ j' = j then a else g i' j' := by
  unfold setEntry
  by_cases hi : i' = i
  · subst hi
    rw [Function.update_self, Function.update_apply]
    simp
  · rw [Function.update_of_ne hi]
    simp [hi]

/-- `for i in range(n): for j in range(m): g[i][j] = body(g, i, j)` -/
def forGrid {α : Type} (n m : ℕ) (body : (ℕ → ℕ → α) → ℕ → ℕ → Except PyErr α) (g : ℕ → ℕ → α) :
    Except PyErr (ℕ → ℕ → α) :=
  forRange n (fun g i => forRange m (fun g j => (body g i j).map (setEntry g i j)) g) g

/-- entry (i', j') is assigned before entry (i, j) -/
def Earlier (i j i' j' : ℕ) : Prop := i' < i ∨ i' = i ∧ j' < j

instance (i j i' j' : ℕ) : Decidable (Earlier i j i' j') := inferInstanceAs (Decidable (_ ∨ _))

/-- the loop rule: if each assignment gives what is expected there, from a table with the expected entries so far and the
original ones from there on, the loops end with the expected table -/
theorem forGrid_ok {α : Type} {n m : ℕ} {body : (ℕ → ℕ → α) → ℕ → ℕ → Except PyErr α} {g₀ G : ℕ → ℕ → α}
    (hbody : ∀ i < n, ∀ j < m, ∀ g, (∀ i' j', j' < m → g i' j' = if Earlier i j i' j' then G i' j' else g₀ i' j') →
      body g i j = .ok (G i j)) :
    ∃ g, forGrid n m body g₀ = .ok g ∧ ∀ i < n, ∀ j < m, g i j = G i j := by
  -- one row, from the table with the rows above it done
  have hrow : ∀ i < n, ∀ g : ℕ → ℕ → α, (∀ i' j', j' < m → g i' j' = if i' < i then G i' j' else g₀ i' j') →
      ∃ g', forRange m (fun g j => (body g i j).map (setEntry g i j)) g = .ok g' ∧
        ∀ i' j', j' < m → g' i' j' = if i' < i + 1 then G i' j' else g₀ i' j' := by
    intro i hi g hg
    have hentry : ∀ j < m, ∀ g : ℕ → ℕ → α,
        (∀ i' j', j' < m → g i' j' = if Earlier i j i' j' then G i' j' else g₀ i' j') →
        ∃ g', (body g i j).map (setEntry g i j) = .ok g' ∧
          ∀ i' j', j' < m → g' i' j' = if Earlier i (j + 1) i' j' then G i' j' else g₀ i' j' := by
      intro j hj g hg
      refine ⟨setEntry g i j (G i j), by rw [hbody i hi j hj g hg]; rfl, fun i' j' hj' => ?_⟩
      rw [setEntry_apply]
      by_cases hij : i' = i ∧ j' = j
      · rw [if_pos hij, if_pos (by unfold Earlier; omega), hij.1, hij.2]
      · rw [if_neg hij, hg i' j' hj']
        refine if_congr ?_ rfl rfl
        unfold Earlier
        omega
    have hstart : ∀ i' j', j' < m → g i' j' = if Earlier i 0 i' j' then G i' j' else g₀ i' j' := by
      intro i' j' hj'
      rw [hg i' j' hj']
      refine if_congr ?_ rfl rfl
      unfold Earlier
      omega
    obtain ⟨g', hg', hend⟩ := forRange_upto
      (P := fun j (g : ℕ → ℕ → α) => ∀ i' j', j' < m → g i' j' = if Earlier i j i' j' then G i' j' else g₀ i' j')
      hentry hstart
    refine ⟨g', hg', fun i' j' hj' => ?_⟩
    rw [hend i' j' hj']
    refine if_congr ?_ rfl rfl
    unfold Earlier
    omega
  have hstart : ∀ i' j', j' < m → g₀ i' j' = if i' < 0 then G i' j' else g₀ i' j' :=
    fun i' j' hj' => by rw [if_neg (Nat.not_lt_zero _)]
  obtain ⟨g, hg, hend⟩ := forRange_upto
    (P := fun i (g : ℕ → ℕ → α) => ∀ i' j', j' < m → g i' j' = if i' < i then G i' j' else g₀ i' j') hrow hstart
  exact ⟨g, hg, fun i hi j hj => by rw [hend i j hj, if_pos hi]⟩

end Viduce
