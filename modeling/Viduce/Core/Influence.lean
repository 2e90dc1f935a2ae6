/-
Networks of layers that compute each position from some of the others. A layer reads along a relation if positions that are
not related to i make no difference at i; layers in a row read along the relations put together. Nothing here names a
program.

- `Reads.comp`, `Reads.layers`: what layers in a row read.
- `Spreads.layers`: layers that set a position if a related one is set carry what is set exactly that far.
- `along_comp`: relations that hold coordinate by coordinate are put together coordinate by coordinate.
- `near_comp`, `reach_near`: neighbourhoods in a box add up.
-/
import Mathlib.Tactic

namespace Viduce.Influence

variable {ι κ μ α β γ : Type}

/-! ## Layers -/

/-- what f gives at i depends on the positions related to i only -/
def Reads (r : ι → κ → Prop) (f : (κ → α) → ι → β) : Prop := ∀ x y i, (∀ j, r i j → x j = y j) → f x i = f y i

/-- f sets i if and only if a position related to i is set -/
def Spreads (r : ι → κ → Prop) (f : (κ → Bool) → ι → Bool) : Prop := ∀ x i, f x i = true ↔ ∃ j, r i j ∧ x j = true

theorem Reads.comp {r : ι → κ → Prop} {s : κ → μ → Prop} {f : (κ → β) → ι → γ} {g : (μ → α) → κ → β} (hf : Reads r f)
    (hg : Reads s g) : Reads (Relation.Comp r s) (f ∘ g) :=
  fun x y i hxy => hf (g x) (g y) i fun j hj => hg x y j fun k hk => hxy k ⟨j, hj, hk⟩

theorem Spreads.comp {r : ι → κ → Prop} {s : κ → μ → Prop} {f : (κ → Bool) → ι → Bool} {g : (μ → Bool) → κ → Bool}
    (hf : Spreads r f) (hg : Spreads s g) : Spreads (Relation.Comp r s) (f ∘ g) := by
  intro x i
  constructor
  · intro h
    obtain ⟨j, hj, hgj⟩ := (hf (g x) i).1 h
    obtain ⟨k, hk, hxk⟩ := (hg x j).1 hgj
    exact ⟨k, ⟨j, hj, hk⟩, hxk⟩
  · rintro ⟨k, ⟨j, hj, hk⟩, hxk⟩
    exact (hf (g x) i).2 ⟨j, hj, (hg x j).2 ⟨k, hk, hxk⟩⟩

/-- layers in a row, the first one first -/
def layers : List ((ι → α) → ι → α) → (ι → α) → ι → α
  | [], x => x
  | f :: fs, x => layers fs (f x)

/-- what they read: from a position back through the last layer to the first -/
def reach : List (ι → ι → Prop) → ι → ι → Prop
  | [] => Eq
  | r :: rs => Relation.Comp (reach rs) r

/-- **Layers in a row.** What they give at i depends on the positions they reach from i only. -/
theorem Reads.layers {rs : List (ι → ι → Prop)} {fs : List ((ι → α) → ι → α)} (h : List.Forall₂ Reads rs fs) :
    Reads (reach rs) (Influence.layers fs) := by
  induction h with
  | nil => exact fun x y i hxy => hxy i rfl
  | cons hf _ ih => exact ih.comp hf

theorem Spreads.layers {rs : List (ι → ι → Prop)} {fs : List ((ι → Bool) → ι → Bool)} (h : List.Forall₂ Spreads rs fs) :
    Spreads (reach rs) (Influence.layers fs) := by
  induction h with
  | nil =>
    intro x i
    constructor
    · exact fun h => ⟨i, rfl, h⟩
    · rintro ⟨j, rfl, hj⟩
      exact hj
  | cons hf _ ih => exact ih.comp hf

/-- one more layer behind the others -/
theorem reach_snoc (rs : List (ι → ι → Prop)) (r : ι → ι → Prop) : reach (rs ++ [r]) = Relation.Comp r (reach rs) := by
  induction rs with
  | nil =>
    simp only [List.nil_append, reach]
    rw [Relation.eq_comp, Relation.comp_eq]
  | cons s rs ih => rw [List.cons_append, reach, ih, reach, Relation.comp_assoc]

theorem reach_self {rs : List (ι → ι → Prop)} (h : ∀ r ∈ rs, ∀ i, r i i) (i : ι) : reach rs i i := by
  induction rs with
  | nil => rfl
  | cons r rs ih => exact ⟨i, ih fun s hs => h s (List.mem_cons_of_mem r hs), h r List.mem_cons_self i⟩

/-! ## Coordinate by coordinate -/

section Along

variable {k : Type} {size : k → ℕ} {c : ι → k → ℕ}

/-- related on each axis -/
def Along (c : ι → k → ℕ) (r : k → ℕ → ℕ → Prop) (i j : ι) : Prop := ∀ a, r a (c i a) (c j a)

/-- two relations on one axis, from one place on it to another -/
def thenOn (n : ℕ) (r s : ℕ → ℕ → Prop) (x z : ℕ) : Prop := ∃ y < n, r x y ∧ s y z

/-- coordinates that take all values below the sizes of the axes -/
structure Fills (c : ι → k → ℕ) (size : k → ℕ) : Prop where
  below : ∀ i a, c i a < size a
  all : ∀ p : k → ℕ, (∀ a, p a < size a) → ∃ i, c i = p

/-- **Axis by axis.** Relations that hold axis by axis are put together axis by axis. -/
theorem along_comp (hc : Fills c size) (r s : k → ℕ → ℕ → Prop) :
    Relation.Comp (Along c r) (Along c s) = Along c fun a => thenOn (size a) (r a) (s a) := by
  ext i j
  constructor
  · rintro ⟨m, hr, hs⟩ a
    exact ⟨c m a, hc.below m a, hr a, hs a⟩
  · intro h
    choose p hp hr hs using h
    obtain ⟨m, rfl⟩ := hc.all p hp
    exact ⟨m, hr, hs⟩

theorem along_congr (hc : Fills c size) {r s : k → ℕ → ℕ → Prop}
    (h : ∀ a x z, x < size a → z < size a → (r a x z ↔ s a x z)) : Along c r = Along c s := by
  ext i j
  exact forall_congr' fun a => h a _ _ (hc.below i a) (hc.below j a)

/-! ## Neighbourhoods -/

/-- at most w apart -/
def Near (w x y : ℕ) : Prop := |(x : ℤ) - y| ≤ w

instance (w x y : ℕ) : Decidable (Near w x y) := inferInstanceAs (Decidable (_ ≤ _))

theorem near_zero {x y : ℕ} : Near 0 x y ↔ x = y := by
  rw [Near, Nat.cast_zero, abs_nonpos_iff, sub_eq_zero, Nat.cast_inj]

/-- two steps go as far as one of both lengths, since what lies between two places is a place too -/
theorem near_comp {n v w x z : ℕ} (hx : x < n) (hz : z < n) : thenOn n (Near v) (Near w) x z ↔ Near (v + w) x z := by
  simp only [thenOn, Near, abs_le]
  constructor
  · rintro ⟨y, -, hxy, hyz⟩
    push_cast
    omega
  · intro h
    push_cast at h
    rcases le_total x z with hle | hle
    · exact ⟨min z (x + v), by omega, by omega, by omega⟩
    · exact ⟨max z (x - v), by omega, by omega, by omega⟩

/-- **Neighbourhoods add up.** Layers that read boxes read the box of all their lengths together. -/
theorem reach_near (hc : Fills c size) {ws : List (k → ℕ)} (hne : ws ≠ []) :
    reach (ws.map fun w => Along c fun a => Near (w a)) = Along c fun a => Near (ws.map (· a)).sum := by
  induction ws with
  | nil => exact absurd rfl hne
  | cons w ws ih =>
    rcases eq_or_ne ws [] with rfl | hws
    · rw [List.map_cons, List.map_nil, reach, reach, Relation.eq_comp]
      simp
    · rw [List.map_cons, reach, ih hws, along_comp hc]
      refine along_congr hc fun a x z hx hz => ?_
      rw [near_comp hx hz, List.map_cons, List.sum_cons, Nat.add_comm]

end Along

end Viduce.Influence
