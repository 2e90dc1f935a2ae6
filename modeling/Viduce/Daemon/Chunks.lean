/-
The chunk protocol of a session, apart from tensors: which of the five roles a chunk call plays, and what each role does
to the three boundary latents. The latents are lists of temporal tiles of any type `τ`, so the same definitions serve the
tensor model (`SessionRunner`) and its shadow in which a tile is just its origin (`Origin`).

A role changes the latents at one point of its body only, once its denoising has succeeded: `commit`. The calls that
fail before that point leave the latents alone, the calls that fail after it (VAE decode, write) have committed.

- `presence`: over any sequence of commits, x0_skip is cached exactly when x0_prev_ is.
- `commit_map`: a commit moves tiles and never looks inside them.
-/
import Mathlib.Tactic

namespace Viduce.Chunks

/-- the five bodies `interpolate_chunk` dispatches to -/
inductive Role where
  | standalone
  | first
  | skip
  | concat
  | last
deriving DecidableEq, Repr

/-- the boundary latents kept between calls -/
structure Latents (τ : Type) where
  x0Prev : Option (List τ)
  x0Skip : Option (List τ)
  x0Prev_ : Option (List τ)
deriving DecidableEq, Repr

variable {τ υ : Type}

/-- no latent cached -/
def Latents.none : Latents τ := ⟨Option.none, Option.none, Option.none⟩

def Latents.map (f : τ → υ) (l : Latents τ) : Latents υ :=
  ⟨l.x0Prev.map (List.map f), l.x0Skip.map (List.map f), l.x0Prev_.map (List.map f)⟩

/-- the role of a call: its index, its flag, and whether a SKIP is pending -/
def dispatch (l : Latents τ) (chunkIndex : ℕ) (isLast : Bool) : Role :=
  if chunkIndex = 0 then if isLast then .standalone else .first
  else if isLast then .last
  else if l.x0Skip.isNone then .skip else .concat

/-- the last tile and the first tile of what a call emitted, as one-tile latents (`nT_cond = 1`) -/
def lastTiles (nTCond : ℕ) (xt : List τ) : List τ := xt.drop (xt.length - nTCond)

def firstTiles (nTCond : ℕ) (xt : List τ) : List τ := xt.take nTCond

/-- what a role does to the latents once it has the tiles `xt` it emits -/
def commit (nTCond : ℕ) (r : Role) (l : Latents τ) (xt : List τ) : Latents τ :=
  match r with
  | .standalone => l
  | .first => { l with x0Prev := some (lastTiles nTCond xt) }
  | .skip => { l with x0Skip := some (firstTiles nTCond xt), x0Prev_ := some (lastTiles nTCond xt) }
  | .concat => ⟨l.x0Prev_, none, none⟩
  | .last => Latents.none

/-- CONCAT's check; the other roles have none -/
def admitted (r : Role) (l : Latents τ) : Bool :=
  match r with
  | .concat => l.x0Prev.isSome && l.x0Skip.isSome
  | _ => true

/-- the number of tiles a role emits, of the three of the window -/
def tiles (r : Role) (l : Latents τ) : ℕ :=
  match r with
  | .standalone => 3
  | .first => 2
  | .skip => 1
  | .concat => 1
  | .last => if l.x0Prev.isSome then 2 else 3

theorem tiles_pos (r : Role) (l : Latents τ) : 0 < tiles r l := by
  cases r with
  | last => simp only [tiles]; split_ifs <;> omega
  | _ => simp [tiles]

/-! ## Presence -/

/-- x0_skip is cached exactly when x0_prev_ is -/
def Paired (l : Latents τ) : Prop := l.x0Skip.isSome = l.x0Prev_.isSome

theorem paired_none : Paired (Latents.none : Latents τ) := rfl

theorem commit_paired (nTCond : ℕ) (r : Role) (l : Latents τ) (xt : List τ) (h : Paired l) :
    Paired (commit nTCond r l xt) := by
  cases r with
  | standalone => exact h
  | first => exact h
  | skip => rfl
  | concat => rfl
  | last => rfl

/-- every cached latent is one tile -/
structure Sized (l : Latents τ) : Prop where
  prev : ∀ x ∈ l.x0Prev, x.length = 1
  skip : ∀ x ∈ l.x0Skip, x.length = 1
  prev_ : ∀ x ∈ l.x0Prev_, x.length = 1

theorem sized_none : Sized (Latents.none : Latents τ) := by
  constructor <;> simp [Latents.none]

theorem lastTiles_length {xt : List τ} (h : 0 < xt.length) : (lastTiles 1 xt).length = 1 := by
  simp [lastTiles]; omega

theorem firstTiles_length {xt : List τ} (h : 0 < xt.length) : (firstTiles 1 xt).length = 1 := by
  simp [firstTiles]; omega

theorem lastTiles_one {xt : List τ} (h : xt ≠ []) : lastTiles 1 xt = [xt.getLast h] := by
  rw [lastTiles, List.drop_length_sub_one h]

theorem firstTiles_one {xt : List τ} (h : xt ≠ []) : firstTiles 1 xt = [xt.head h] := by
  cases xt with
  | nil => exact absurd rfl h
  | cons a l => rfl

theorem commit_sized (r : Role) {l : Latents τ} {xt : List τ} (hxt : 0 < xt.length) (h : Sized l) :
    Sized (commit 1 r l xt) := by
  cases r with
  | standalone => exact h
  | first => exact { h with prev := by simpa [commit] using lastTiles_length hxt }
  | skip =>
    exact { h with
      skip := by simpa [commit] using firstTiles_length hxt
      prev_ := by simpa [commit] using lastTiles_length hxt }
  | concat => exact ⟨h.prev_, by simp [commit], by simp [commit]⟩
  | last => exact sized_none

/-- a property of every cached tile -/
structure Latents.All (P : τ → Prop) (l : Latents τ) : Prop where
  prev : ∀ x ∈ l.x0Prev, ∀ t ∈ x, P t
  skip : ∀ x ∈ l.x0Skip, ∀ t ∈ x, P t
  prev_ : ∀ x ∈ l.x0Prev_, ∀ t ∈ x, P t

theorem all_none (P : τ → Prop) : (Latents.none : Latents τ).All P := by
  constructor <;> simp [Latents.none]

theorem Latents.All.mono {P Q : τ → Prop} {l : Latents τ} (h : l.All P) (hPQ : ∀ t, P t → Q t) : l.All Q :=
  ⟨fun x hx t ht => hPQ t (h.prev x hx t ht), fun x hx t ht => hPQ t (h.skip x hx t ht),
    fun x hx t ht => hPQ t (h.prev_ x hx t ht)⟩

/-- a commit caches only tiles that were cached or that the call emits -/
theorem commit_all {P : τ → Prop} (n : ℕ) (r : Role) {l : Latents τ} {xt : List τ} (hxt : ∀ t ∈ xt, P t)
    (h : l.All P) : (commit n r l xt).All P := by
  have hlast : ∀ t ∈ lastTiles n xt, P t := fun t ht => hxt t (List.mem_of_mem_drop ht)
  have hfirst : ∀ t ∈ firstTiles n xt, P t := fun t ht => hxt t (List.mem_of_mem_take ht)
  cases r with
  | standalone => exact h
  | first => exact { h with prev := by simpa [commit] using hlast }
  | skip => exact { h with skip := by simpa [commit] using hfirst, prev_ := by simpa [commit] using hlast }
  | concat => exact ⟨h.prev_, by simp [commit], by simp [commit]⟩
  | last => exact all_none P

/-! ## Renaming tiles -/

@[simp] theorem map_x0Skip_isNone (f : τ → υ) (l : Latents τ) : (l.map f).x0Skip.isNone = l.x0Skip.isNone := by
  simp [Latents.map]

theorem dispatch_map (f : τ → υ) (l : Latents τ) (k : ℕ) (b : Bool) : dispatch (l.map f) k b = dispatch l k b := by
  simp [dispatch]

theorem admitted_map (f : τ → υ) (r : Role) (l : Latents τ) : admitted r (l.map f) = admitted r l := by
  cases r <;> simp [admitted, Latents.map]

theorem tiles_map (f : τ → υ) (r : Role) (l : Latents τ) : tiles r (l.map f) = tiles r l := by
  cases r <;> simp [tiles, Latents.map]

/-- a commit moves tiles and never looks inside them -/
theorem commit_map (f : τ → υ) (nTCond : ℕ) (r : Role) (l : Latents τ) (xt : List τ) :
    commit nTCond r (l.map f) (xt.map f) = (commit nTCond r l xt).map f := by
  cases r <;> simp [commit, Latents.map, Latents.none, lastTiles, firstTiles, List.map_drop, List.map_take]

/-! ## Which role a call plays -/

theorem dispatch_concat {l : Latents τ} {k : ℕ} {b : Bool} :
    dispatch l k b = .concat ↔ k ≠ 0 ∧ b = false ∧ l.x0Skip.isSome = true := by
  unfold dispatch
  split_ifs <;> simp_all [Option.isSome_iff_ne_none]

theorem dispatch_skip {l : Latents τ} {k : ℕ} {b : Bool} :
    dispatch l k b = .skip ↔ k ≠ 0 ∧ b = false ∧ l.x0Skip = none := by
  unfold dispatch
  split_ifs <;> simp_all

end Viduce.Chunks
