/-
A ledger of handles: what has been allocated, in order, and what has been released. A handle is the number of its
allocation. Nothing here names a program.

- `Settled`: every handle has been released exactly once.
- `Owes`: what a program has still to release; every handle is owed or has been released, once. `owes_empty`,
  `Owes.allocate`, `Owes.release`, `Owes.releaseAll`, `Owes.perm`, `Owes.swap`: the rules.
- `Owes.settled_iff`: a ledger is settled exactly when nothing is owed.
- `Returns`, `ReleasesAll`: the same for a function that fails or returns a value which takes handles over.
  `Returns.releasesAll_iff` connects them.
-/
import Mathlib.Tactic

namespace Viduce

structure Ledger (κ : Type) where
  allocated : List κ
  released : List ℕ
deriving DecidableEq, Repr

namespace Ledger

variable {κ : Type}

def empty : Ledger κ := ⟨[], []⟩

/-- the next handle -/
def next (l : Ledger κ) : ℕ := l.allocated.length

def allocate (l : Ledger κ) (kind : κ) : Ledger κ := { l with allocated := l.allocated ++ [kind] }

def release (l : Ledger κ) (id : ℕ) : Ledger κ := { l with released := l.released ++ [id] }

def releaseAll (l : Ledger κ) (ids : List ℕ) : Ledger κ := ids.foldl release l

/-- **Exactly once.** -/
def Settled (l : Ledger κ) : Prop := ∀ id < l.allocated.length, l.released.count id = 1

instance (l : Ledger κ) : Decidable l.Settled :=
  inferInstanceAs (Decidable (∀ id < l.allocated.length, l.released.count id = 1))

/-- every handle is owed or has been released, once -/
def Owes (l : Ledger κ) (owed : List ℕ) : Prop := (owed ++ l.released).Perm (List.range l.allocated.length)

/-! ## The rules -/

variable {l : Ledger κ} {id : ℕ} {ids owed owed' : List ℕ}

theorem owes_empty : (empty : Ledger κ).Owes [] := List.Perm.refl _

theorem Owes.perm (h : l.Owes owed) (hp : owed'.Perm owed) : l.Owes owed' := (hp.append_right _).trans h

/-- what is owed to two parties, in the other order -/
theorem Owes.swap {ids ids' : List ℕ} (h : l.Owes (ids ++ (ids' ++ owed))) : l.Owes (ids' ++ (ids ++ owed)) := by
  refine h.perm ?_
  rw [← List.append_assoc, ← List.append_assoc]
  exact List.perm_append_comm.append_right owed

theorem Owes.allocate (h : l.Owes owed) (kind : κ) : (l.allocate kind).Owes (l.next :: owed) := by
  have hlength : (l.allocate kind).allocated.length = l.allocated.length + 1 := List.length_append
  rw [Owes, hlength, List.range_succ]
  exact (h.cons l.next).trans (List.perm_append_singleton _ _).symm

theorem Owes.release (h : l.Owes (id :: owed)) : (l.release id).Owes owed := by
  have hmoved : (owed ++ (l.released ++ [id])).Perm (id :: (owed ++ l.released)) := by
    rw [← List.append_assoc]
    exact List.perm_append_singleton _ _
  exact hmoved.trans h

theorem Owes.releaseAll (h : l.Owes (ids ++ owed)) : (l.releaseAll ids).Owes owed := by
  induction ids generalizing l with
  | nil => exact h
  | cons id ids ih => exact ih h.release

/-- **Settled exactly when nothing is owed.** A handle that is owed has not been released. -/
theorem Owes.settled_iff (h : l.Owes owed) : l.Settled ↔ owed = [] := by
  have hcount : ∀ id < l.allocated.length, owed.count id + l.released.count id = 1 := by
    intro id hid
    rw [← List.count_append, h.count_eq, List.count_range, if_pos hid]
  constructor
  · intro hsettled
    rw [List.eq_nil_iff_forall_not_mem]
    intro id hmem
    have hid : id < l.allocated.length := List.mem_range.1 (h.subset (List.mem_append_left _ hmem))
    have hpos : 0 < owed.count id := List.count_pos_iff.2 hmem
    have hone := hcount id hid
    rw [hsettled id hid] at hone
    omega
  · intro hnil id hid
    simpa [hnil] using hcount id hid

/-! ## Functions that fail or return -/

variable {ε α : Type}

/-- the value returned takes over the handles `own` names, and `rest` is owed besides -/
def Returns (own : α → List ℕ) (result : Except ε α × Ledger κ) (rest : List ℕ) : Prop :=
  match result with
  | (.ok a, l) => l.Owes (own a ++ rest)
  | (.error _, l) => l.Owes rest

/-- the function fails and everything is released, or returns a value whose `destroy` releases it -/
def ReleasesAll (destroy : α → Ledger κ → Ledger κ) : Except ε α × Ledger κ → Prop
  | (.ok a, l) => (destroy a l).Settled
  | (.error _, l) => l.Settled

instance (destroy : α → Ledger κ → Ledger κ) :
    (result : Except ε α × Ledger κ) → Decidable (ReleasesAll destroy result)
  | (.ok a, l) => inferInstanceAs (Decidable (destroy a l).Settled)
  | (.error _, l) => inferInstanceAs (Decidable l.Settled)

/-- what a value takes over its `destroy` releases; then nothing may be owed besides -/
theorem Returns.releasesAll_iff {own : α → List ℕ} {destroy : α → Ledger κ → Ledger κ} {result : Except ε α × Ledger κ}
    {rest : List ℕ} (h : Returns own result rest)
    (hdestroy : ∀ {a l}, l.Owes (own a ++ rest) → (destroy a l).Owes rest) :
    ReleasesAll destroy result ↔ rest = [] := by
  obtain ⟨_ | a, l⟩ := result
  · exact Owes.settled_iff h
  · exact (hdestroy h).settled_iff

end Ledger

end Viduce
