/-
One program run twice, on related data. If the data lead to the same branches in both runs, both raise the same exception or
both return related values, and what they leave behind is related too. The rules follow the statements of a program; the
last ones are for stages over slots. Nothing here names a program.

- `Agree`, `Agree.bind`: outcomes of pure code that may raise.
- `InStep`, `InStep.bind`: runs of stateful code from related states.
- `InStep.useSlot`, `InStep.chain`, `InStep.chainJoin`, `InStep.feedAt`: stages, stages in a row, and chunk after chunk.
-/
import Mathlib.Tactic
import Viduce.Core.Streaming

namespace Viduce

open Streaming

variable {α α' β β' σ τ : Type}

/-! ## Outcomes -/

/-- both returned, and the values are related, or both raised the same -/
inductive Agree (R : α → β → Prop) : Except PyErr α → Except PyErr β → Prop where
  | ok {a : α} {b : β} (h : R a b) : Agree R (.ok a) (.ok b)
  | error (e : PyErr) : Agree R (.error e) (.error e)

namespace Agree

variable {R : α → β → Prop} {S : α' → β' → Prop}

theorem pure {a : α} {b : β} (h : R a b) : Agree R (Pure.pure a) (Pure.pure b) := .ok h

theorem mono {R' : α → β → Prop} {x : Except PyErr α} {y : Except PyErr β} (h : Agree R x y) (hR : ∀ a b, R a b → R' a b) :
    Agree R' x y := by
  cases h with
  | ok h => exact .ok (hR _ _ h)
  | error e => exact .error e

theorem bind {x : Except PyErr α} {y : Except PyErr β} {f : α → Except PyErr α'} {g : β → Except PyErr β'} (h : Agree R x y)
    (hf : ∀ a b, R a b → Agree S (f a) (g b)) : Agree S (x >>= f) (y >>= g) := by
  cases h with
  | ok h => exact hf _ _ h
  | error e => exact .error e

/-- a branch that is taken in both runs or in neither -/
theorem ite {p q : Prop} [Decidable p] [Decidable q] (hpq : p ↔ q) {x x' : Except PyErr α} {y y' : Except PyErr β}
    (ht : p → Agree R x y) (hf : ¬ p → Agree R x' y') : Agree R (if p then x else x') (if q then y else y') := by
  by_cases hp : p
  · rw [if_pos hp, if_pos (hpq.1 hp)]
    exact ht hp
  · rw [if_neg hp, if_neg fun hq => hp (hpq.2 hq)]
    exact hf hp

/-- a check that lets both runs through or neither -/
theorem guarded {p q : Prop} [Decidable p] [Decidable q] (hpq : p ↔ q) {x : Except PyErr α} {y : Except PyErr β} {e : PyErr}
    (ht : p → Agree R x y) : Agree R (if p then x else .error e) (if q then y else .error e) :=
  ite hpq ht fun _ => .error e

/-- a comprehension -/
theorem mapM {ι : Type} {f : ι → Except PyErr α} {g : ι → Except PyErr β} {l : List ι} (h : ∀ i ∈ l, Agree R (f i) (g i)) :
    Agree (List.Forall₂ R) (l.mapM f) (l.mapM g) := by
  induction l with
  | nil => exact .ok .nil
  | cons i l ih =>
    rw [List.mapM_cons, List.mapM_cons]
    refine (h i List.mem_cons_self).bind ?_
    intro a b hab
    exact (ih fun j hj => h j (List.mem_cons_of_mem i hj)).bind fun as bs has => .ok (.cons hab has)

/-- a loop over related variables -/
theorem foldlM {ι : Type} {f : α → ι → Except PyErr α} {g : β → ι → Except PyErr β} {l : List ι}
    (h : ∀ i ∈ l, ∀ a b, R a b → Agree R (f a i) (g b i)) {a : α} {b : β} (hab : R a b) :
    Agree R (l.foldlM f a) (l.foldlM g b) := by
  induction l generalizing a b with
  | nil => exact .ok hab
  | cons i l ih =>
    rw [List.foldlM_cons, List.foldlM_cons]
    exact (h i List.mem_cons_self a b hab).bind fun a' b' hab' => ih (fun j hj => h j (List.mem_cons_of_mem i hj)) hab'

end Agree

/-! ## Runs -/

/-- from related states, the outcomes agree and the states behind are related again -/
def InStep (T : σ → τ → Prop) (R : α → β → Prop) (x : Py σ α) (y : Py τ β) : Prop :=
  ∀ s t, T s t → Agree R (x.run s).1 (y.run t).1 ∧ T (x.run s).2 (y.run t).2

namespace InStep

variable {T : σ → τ → Prop} {R : α → β → Prop} {S : α' → β' → Prop}

theorem pure {a : α} {b : β} (h : R a b) : InStep T R (Pure.pure a) (Pure.pure b) := fun _ _ hst => ⟨.ok h, hst⟩

theorem raise (e : PyErr) : InStep T R (Py.raise e) (Py.raise e) := fun _ _ hst => ⟨.error e, hst⟩

theorem ofExcept {x : Except PyErr α} {y : Except PyErr β} (h : Agree R x y) : InStep T R (Py.ofExcept x) (Py.ofExcept y) :=
  fun _ _ hst => ⟨h, hst⟩

theorem modify {f : σ → σ} {g : τ → τ} (h : ∀ s t, T s t → T (f s) (g t)) :
    InStep T Eq (Py.modify f) (Py.modify g) := fun s t hst => ⟨.ok rfl, h s t hst⟩

theorem bind {x : Py σ α} {y : Py τ β} {f : α → Py σ α'} {g : β → Py τ β'} (h : InStep T R x y)
    (hf : ∀ a b, R a b → InStep T S (f a) (g b)) : InStep T S (x >>= f) (y >>= g) := by
  intro s t hst
  obtain ⟨hout, hleft⟩ := h s t hst
  rw [Py.run_bind, Py.run_bind]
  generalize x.run s = r at hout hleft ⊢
  generalize y.run t = r' at hout hleft ⊢
  obtain ⟨o, s'⟩ := r
  obtain ⟨o', t'⟩ := r'
  cases hout with
  | ok hab => exact hf _ _ hab s' t' hleft
  | error e => exact ⟨.error e, hleft⟩

/-- code of a component, if related components make related objects -/
theorem zoom {σ' τ' : Type} {T' : σ' → τ' → Prop} {view : σ → σ'} {put : σ' → σ → σ} {view' : τ → τ'} {put' : τ' → τ → τ}
    {x : Py σ' α} {y : Py τ' β} (h : InStep T' R x y) (hview : ∀ s t, T s t → T' (view s) (view' t))
    (hput : ∀ c d s t, T' c d → T s t → T (put c s) (put' d t)) :
    InStep T R (Py.zoom view put x) (Py.zoom view' put' y) := by
  intro s t hst
  obtain ⟨hout, hleft⟩ := h _ _ (hview s t hst)
  exact ⟨hout, hput _ _ s t hleft hst⟩

end InStep

/-! ## Stages over slots -/

variable {E E' F G κ κ' : Type}

/-- as many slots that hold related items, and the same next one -/
structure SlotsAgree (C : κ → κ' → Prop) (s : Slots κ) (t : Slots κ') : Prop where
  items : List.Forall₂ (Option.Rel C) s.items t.items
  idx : s.idx = t.idx

theorem SlotsAgree.fresh (C : κ → κ' → Prop) (n idx : ℕ) :
    SlotsAgree C ⟨List.replicate n none, idx⟩ ⟨List.replicate n none, idx⟩ := by
  refine ⟨?_, rfl⟩
  induction n with
  | zero => exact .nil
  | succ n ih => exact .cons .none ih

namespace InStep

variable {C : κ → κ' → Prop} {R : List F → List G → Prop}

theorem read : InStep (SlotsAgree C) (Option.Rel C) (Slots.read (κ := κ)) (Slots.read (κ := κ')) := by
  intro s t hst
  have hitem : Option.Rel (Option.Rel C) s.items[s.idx]? t.items[t.idx]? := by
    rw [← hst.idx]
    rcases Nat.lt_or_ge s.idx s.items.length with h | h
    · have h' : s.idx < t.items.length := hst.items.length_eq ▸ h
      rw [List.getElem?_eq_getElem h, List.getElem?_eq_getElem h']
      exact .some (hst.items.get h h')
    · rw [List.getElem?_eq_none h, List.getElem?_eq_none (hst.items.length_eq ▸ h)]
      exact .none
  simp only [Py.run, Slots.read]
  generalize s.items[s.idx]? = c at hitem ⊢
  generalize t.items[t.idx]? = d at hitem ⊢
  cases hitem with
  | none => exact ⟨.error _, hst⟩
  | some h => exact ⟨.ok h, hst⟩

theorem write {c : κ} {d : κ'} (h : C c d) : InStep (SlotsAgree C) Eq (Slots.write c) (Slots.write d) := by
  intro s t hst
  have hlen := hst.items.length_eq
  simp only [Py.run, Slots.write, ← hst.idx, ← hlen]
  split_ifs
  · refine ⟨.ok rfl, ⟨?_, rfl⟩⟩
    exact List.forall₂_iff_get.2 ⟨by simp [hlen], fun i h₁ h₂ => by
      simp only [List.get_eq_getElem, List.getElem_set]
      split_ifs
      · exact .some h
      · exact hst.items.get (by simpa using h₁) (by simpa using h₂)⟩
  · exact ⟨.error _, hst⟩

/-- a stage of one slot -/
theorem useSlot {work : Option κ → List F → Except PyErr (List F × κ)}
    {work' : Option κ' → List G → Except PyErr (List G × κ')}
    (hwork : ∀ c d x y, Option.Rel C c d → R x y → Agree (fun p q => R p.1 q.1 ∧ C p.2 q.2) (work c x) (work' d y))
    {x : List F} {y : List G} (hxy : R x y) :
    InStep (SlotsAgree C) R (Streaming.useSlot work x) (Streaming.useSlot work' y) := by
  refine read.bind ?_
  intro c d hcd
  refine (ofExcept (hwork c d x y hcd hxy)).bind ?_
  intro p q hpq
  exact (write hpq.2).bind fun _ _ _ => pure hpq.1

section Chain

variable {T : σ → τ → Prop} {ι : Type} {stage : ι → List F → Py σ (List F)} {stage' : ι → List G → Py τ (List G)} {ls : List ι}

theorem chain (h : ∀ i ∈ ls, ∀ x y, R x y → InStep T R (stage i x) (stage' i y)) {x : List F} {y : List G} (hxy : R x y) :
    InStep T R (Streaming.chain (ls.map stage) x) (Streaming.chain (ls.map stage') y) := by
  induction ls generalizing x y with
  | nil => exact pure hxy
  | cons i ls ih =>
    exact (h i List.mem_cons_self x y hxy).bind fun x' y' hxy' => ih (fun j hj => h j (List.mem_cons_of_mem i hj)) hxy'

variable {Q : E → E' → Prop} {join : List F → E → Except PyErr (List F)} {join' : List G → E' → Except PyErr (List G)}

/-- the next side input is joined -/
theorem popJoin (hjoin : ∀ x y e e', R x y → Q e e' → Agree R (join x e) (join' y e')) {x : List F} {y : List G}
    {extra : List E} {extra' : List E'} (hxy : R x y) (hextra : List.Forall₂ Q extra extra') :
    Agree (fun p q => R p.1 q.1 ∧ List.Forall₂ Q p.2 q.2) (Streaming.popJoin join x extra)
      (Streaming.popJoin join' y extra') := by
  cases hextra with
  | nil => exact .error _
  | cons he hextra => exact (hjoin x y _ _ hxy he).bind fun z z' hz => .ok ⟨hz, hextra⟩

theorem chainJoin (h : ∀ i ∈ ls, ∀ x y, R x y → InStep T R (stage i x) (stage' i y))
    (hjoin : ∀ x y e e', R x y → Q e e' → Agree R (join x e) (join' y e')) {x : List F} {y : List G} {extra : List E}
    {extra' : List E'} (hxy : R x y) (hextra : List.Forall₂ Q extra extra') :
    InStep T (fun p q => R p.1 q.1 ∧ List.Forall₂ Q p.2 q.2) (Streaming.chainJoin join (ls.map stage) x extra)
      (Streaming.chainJoin join' (ls.map stage') y extra') := by
  induction ls generalizing x y extra extra' with
  | nil => exact pure ⟨hxy, hextra⟩
  | cons i ls ih =>
    refine (h i List.mem_cons_self x y hxy).bind ?_
    intro x' y' hxy'
    refine (ofExcept (popJoin hjoin hxy' hextra)).bind ?_
    intro p q hpq
    exact ih (fun j hj => h j (List.mem_cons_of_mem i hj)) hpq.1 hpq.2

end Chain

variable {join : List F → List F → Except PyErr (List F)} {join' : List G → List G → Except PyErr (List G)}

/-- chunk after chunk, by induction on the rounds -/
theorem feedAt {round : ℕ → Py (Slots κ) (List F)} {round' : ℕ → Py (Slots κ') (List G)} {n : ℕ}
    (hround : ∀ i < n, InStep (SlotsAgree C) R (round i) (round' i))
    (hjoin : ∀ x y x' y', R x y → R x' y' → Agree R (join x x') (join' y y')) :
    InStep (SlotsAgree C) (Option.Rel R) (Streaming.feedAt round join n) (Streaming.feedAt round' join' n) := by
  induction n with
  | zero => exact pure .none
  | succ n ih =>
    refine (ih fun i hi => hround i (Nat.lt_succ_of_lt hi)).bind fun o o' ho => ?_
    refine (modify fun s t hst => ⟨hst.items, rfl⟩).bind fun _ _ _ => ?_
    refine (hround n (Nat.lt_succ_self n)).bind ?_
    intro x y hxy
    cases ho with
    | none => exact pure (.some hxy)
    | some h => exact (ofExcept (hjoin _ _ x y h hxy)).bind fun z z' hz => pure (.some hz)

theorem feed {forward : List F → Py (Slots κ) (List F)} {forward' : List G → Py (Slots κ') (List G)} {chunk : ℕ → List F}
    {chunk' : ℕ → List G} {n : ℕ} (hforward : ∀ i < n, InStep (SlotsAgree C) R (forward (chunk i)) (forward' (chunk' i)))
    (hjoin : ∀ x y x' y', R x y → R x' y' → Agree R (join x x') (join' y y')) :
    InStep (SlotsAgree C) (Option.Rel R) (Streaming.feed forward join chunk n) (Streaming.feed forward' join' chunk' n) := by
  rw [feed_eq, feed_eq]
  exact feedAt hforward hjoin

end InStep

end Viduce
