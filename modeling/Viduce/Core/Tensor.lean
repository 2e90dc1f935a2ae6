/-
Dense tensors: a shape and the element at each index. Storage is row-major: `ravel` sends an index to its position,
`unravel` is its inverse (`unravel_ravel`), and `toList` lists the elements in storage order (`toList_getElem?`).
`blocks_getElem?` is the same for code that pushes blocks of one length in a loop.
Views (`permute`, `narrow`, `indexSelect`) only change how an index is read, as strides do. Nothing here names a program.
-/
import Mathlib.Tactic

namespace Viduce

structure Tensor (α : Type) where
  shape : List ℕ
  get : List ℕ → α
deriving Inhabited

namespace Tensor

variable {α β : Type}

/-- the length of dimension 0 -/
def dim0 (x : Tensor α) : ℕ := x.shape.headD 0

/-- the number of elements -/
def numel (x : Tensor α) : ℕ := x.shape.prod

/-- an index has one coordinate for each dimension, each below it -/
def InBounds (shape idx : List ℕ) : Prop := List.Forall₂ (· < ·) idx shape

/-- row-major position of an index -/
def ravel : List ℕ → List ℕ → ℕ
  | _ :: ds, i :: is => i * ds.prod + ravel ds is
  | _, _ => 0

/-- the index at a row-major position -/
def unravel : List ℕ → ℕ → List ℕ
  | [], _ => []
  | _ :: ds, n => n / ds.prod :: unravel ds (n % ds.prod)

@[simp] theorem inBounds_nil : InBounds [] [] := List.Forall₂.nil

@[simp] theorem inBounds_cons {d i : ℕ} {ds is : List ℕ} :
    InBounds (d :: ds) (i :: is) ↔ i < d ∧ InBounds ds is := List.forall₂_cons

theorem ravel_lt {shape idx : List ℕ} (h : InBounds shape idx) : ravel shape idx < shape.prod := by
  induction h with
  | nil => simp [ravel]
  | @cons i d is ds hi _ ih =>
    simp only [ravel, List.prod_cons]
    calc i * ds.prod + ravel ds is < i * ds.prod + ds.prod := by omega
      _ = (i + 1) * ds.prod := by ring
      _ ≤ d * ds.prod := Nat.mul_le_mul_right _ hi

/-- **Storage is injective.** The index at the position of an index is that index. -/
theorem unravel_ravel {shape idx : List ℕ} (h : InBounds shape idx) : unravel shape (ravel shape idx) = idx := by
  induction h with
  | nil => rfl
  | @cons i d is ds _ hs ih =>
    have hlt := ravel_lt hs
    have hpos : 0 < ds.prod := by omega
    have hdiv : (i * ds.prod + ravel ds is) / ds.prod = i := by
      rw [Nat.mul_comm, Nat.mul_add_div hpos, Nat.div_eq_of_lt hlt, Nat.add_zero]
    have hmod : (i * ds.prod + ravel ds is) % ds.prod = ravel ds is := by
      rw [Nat.mul_comm, Nat.mul_add_mod, Nat.mod_eq_of_lt hlt]
    simp only [ravel, unravel, hdiv, hmod, ih]

/-- the elements in storage order -/
def toList (x : Tensor α) : List α := (List.range x.numel).map fun n => x.get (unravel x.shape n)

@[simp] theorem toList_length (x : Tensor α) : x.toList.length = x.numel := by
  simp [toList]

theorem toList_getElem? (x : Tensor α) {idx : List ℕ} (h : InBounds x.shape idx) :
    x.toList[ravel x.shape idx]? = some (x.get idx) := by
  have hlt : ravel x.shape idx < x.numel := ravel_lt h
  simp [toList, hlt, unravel_ravel h]

/-- a tensor over the front of a buffer (`frombuffer(..).view(shape)`); `d` is never read inside the shape -/
def ofList (shape : List ℕ) (l : List α) (d : α) : Tensor α := ⟨shape, fun idx => l.getD (ravel shape idx) d⟩

theorem ofList_get (shape : List ℕ) (l : List α) (d : α) (idx : List ℕ) :
    (ofList shape l d).get idx = l.getD (ravel shape idx) d := rfl

/-- `x.permute(p)`: dimension i of the result is dimension p[i] of x -/
def permute (p : List ℕ) (x : Tensor α) : Tensor α where
  shape := p.map fun k => x.shape.getD k 0
  get idx := x.get ((List.range x.shape.length).map fun k => idx.getD (p.idxOf k) 0)

/-- `x[i]` for each i of a list, along dimension 0 -/
def indexSelect (is : List ℕ) (x : Tensor α) : Tensor α where
  shape := is.length :: x.shape.tail
  get
    | [] => x.get []
    | n :: idx => x.get (is.getD n 0 :: idx)

/-- `x[a:b]` along dimension 0 -/
def narrow (a b : ℕ) (x : Tensor α) : Tensor α where
  shape := (min b x.dim0 - a) :: x.shape.tail
  get
    | [] => x.get []
    | n :: idx => x.get ((n + a) :: idx)

def map (f : α → β) (x : Tensor α) : Tensor β := ⟨x.shape, fun idx => f (x.get idx)⟩

theorem shape_of_tail {x : Tensor α} {d : ℕ} {ds : List ℕ} (h : x.shape.tail = d :: ds) : x.shape = x.dim0 :: d :: ds := by
  obtain ⟨shape, get⟩ := x
  cases shape with
  | nil => cases h
  | cons a rest =>
    obtain rfl : rest = d :: ds := h
    rfl

@[simp] theorem dim0_narrow (a b : ℕ) (x : Tensor α) : (x.narrow a b).dim0 = min b x.dim0 - a := rfl

@[simp] theorem dim0_indexSelect (is : List ℕ) (x : Tensor α) : (x.indexSelect is).dim0 = is.length := rfl

@[simp] theorem dim0_map (f : α → β) (x : Tensor α) : (x.map f).dim0 = x.dim0 := rfl

end Tensor

/-! ## Blocks of one length -/

section Blocks

variable {α : Type} {f : ℕ → List α} {n k : ℕ}

theorem blocks_length (hf : ∀ i < n, (f i).length = k) : ((List.range n).flatMap f).length = n * k := by
  induction n with
  | zero => simp
  | succ n ih =>
    rw [List.range_succ, List.flatMap_append, List.length_append, ih fun i hi => hf i (by omega), List.flatMap_singleton,
      hf n (by omega), Nat.succ_mul]

/-- element j of block i stands at position i * k + j -/
theorem blocks_getElem? (hf : ∀ i < n, (f i).length = k) {i j : ℕ} (hi : i < n) (hj : j < k) :
    ((List.range n).flatMap f)[i * k + j]? = (f i)[j]? := by
  induction n with
  | zero => exact absurd hi (Nat.not_lt_zero i)
  | succ n ih =>
    have hf' : ∀ i < n, (f i).length = k := fun i hi => hf i (by omega)
    rw [List.range_succ, List.flatMap_append, List.flatMap_singleton]
    rcases Nat.lt_succ_iff_lt_or_eq.1 hi with hlt | rfl
    · have hin : i * k + j < n * k := by
        calc i * k + j < i * k + k := by omega
          _ = (i + 1) * k := by ring
          _ ≤ n * k := Nat.mul_le_mul_right k hlt
      rw [List.getElem?_append_left (by rwa [blocks_length hf']), ih hf' hlt]
    · rw [List.getElem?_append_right (by rw [blocks_length hf']; omega), blocks_length hf', Nat.add_sub_cancel_left]

end Blocks

end Viduce
