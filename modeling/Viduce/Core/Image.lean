/-
Images: tensors with their last two axes singled out. The axes before them have the lengths `lead`, and what stands at a
row and a column is a value of any type. Slices, zero padding, concatenation and stacking, as torch has them, and linear
blends of neighbours. Nothing here names a program.

- `blendLines_apply`: a blend mixes the first lines of b with the last of a, and leaves the others.
- `mixV_px`, `mixH_px`: what blending images gives; `blendV_ok`, `blendH_ok`: it does if they agree on the other axis.
- `catLines_regular`: lines put together from parts of one length, the last one no longer.
- `catH_ok`, `catW_ok`, `stack_ok`: putting images together.
-/
import Mathlib.Tactic
import Viduce.Core.Py

namespace Viduce

structure Image (V : Type) where
  /-- the lengths of the axes before the last two -/
  lead : List ℕ
  height : ℕ
  width : ℕ
  /-- what stands at a row and a column -/
  px : ℕ → ℕ → V

variable {U V W : Type}

/-! ## Lines -/

/-- mixes the first e lines of b with the last e of the n lines of a, in place -/
def blendLines [Add U] [SMul ℚ U] (e n : ℕ) (a b : ℕ → U) : ℕ → U :=
  (List.range e).foldl
    (fun b (y : ℕ) => Function.update b y ((1 - (y : ℚ) / e) • a (n - e + y) + ((y : ℚ) / e) • b y)) b

theorem blendLines_apply [Add U] [SMul ℚ U] (e n : ℕ) (a b : ℕ → U) (y : ℕ) :
    blendLines e n a b y = if y < e then (1 - (y : ℚ) / e) • a (n - e + y) + ((y : ℚ) / e) • b y else b y := by
  -- the lines before k are mixed after k steps
  have hsteps : ∀ k y, (List.range k).foldl
      (fun b (y : ℕ) => Function.update b y ((1 - (y : ℚ) / e) • a (n - e + y) + ((y : ℚ) / e) • b y)) b y =
        if y < k then (1 - (y : ℚ) / e) • a (n - e + y) + ((y : ℚ) / e) • b y else b y := by
    intro k
    induction k with
    | zero => exact fun y => by simp
    | succ k ih =>
      intro y
      rw [List.range_succ, List.foldl_append, List.foldl_cons, List.foldl_nil]
      rcases lt_trichotomy y k with hlt | rfl | hgt
      · rw [Function.update_of_ne hlt.ne, ih, if_pos hlt, if_pos (by omega)]
      · rw [Function.update_self, ih, if_neg (lt_irrefl _), if_pos (Nat.lt_succ_self _)]
      · rw [Function.update_of_ne hgt.ne', ih, if_neg (by omega), if_neg (by omega)]
  exact hsteps e y

/-- lines put after each other: how many, and which -/
def catLines : ℕ × (ℕ → U) → List (ℕ × (ℕ → U)) → ℕ × (ℕ → U)
  | p, [] => p
  | p, q :: rest =>
    let r := catLines q rest
    (p.1 + r.1, fun x => if x < p.1 then p.2 x else r.2 (x - p.1))

theorem map_range_succ (f : ℕ → U) (m : ℕ) :
    (List.range (m + 1)).map f = f 0 :: (List.range m).map fun j => f (j + 1) := by
  rw [List.range_succ_eq_map, List.map_cons, List.map_map]
  rfl

/-- parts of S lines each, the last one no longer: line x is line x % S of part x / S -/
theorem catLines_regular {S m : ℕ} {p : ℕ → ℕ × (ℕ → U)} (hS : 0 < S) (hp : ∀ j < m, (p j).1 = S) (hlast : (p m).1 ≤ S) :
    (catLines (p 0) ((List.range m).map fun j => p (j + 1))).1 = m * S + (p m).1 ∧
      ∀ x < m * S + (p m).1,
        (catLines (p 0) ((List.range m).map fun j => p (j + 1))).2 x = (p (x / S)).2 (x % S) := by
  induction m generalizing p with
  | zero =>
    refine ⟨by simp [catLines], fun x hx => ?_⟩
    have hxS : x < S := by omega
    rw [Nat.div_eq_of_lt hxS, Nat.mod_eq_of_lt hxS]
    rfl
  | succ m ih =>
    obtain ⟨hlen, hline⟩ := ih (p := fun j => p (j + 1)) (fun j hj => hp (j + 1) (by omega)) hlast
    rw [map_range_succ, catLines, hp 0 (by omega)]
    simp only at hlen hline ⊢
    rw [hlen, Nat.succ_mul]
    refine ⟨by omega, fun x hx => ?_⟩
    by_cases hxS : x < S
    · rw [if_pos hxS, Nat.div_eq_of_lt hxS, Nat.mod_eq_of_lt hxS]
    · rw [if_neg hxS, hline (x - S) (by omega)]
      have hx' : x - S + S = x := by omega
      rw [← Nat.add_div_right _ hS, hx', ← Nat.add_mod_right (x - S) S, hx']

namespace Image

/-! ## Parts of an image -/

/-- `x[..., a:b, c:d]` -/
def slice (a b c d : ℕ) (x : Image V) : Image V :=
  ⟨x.lead, min b x.height - a, min d x.width - c, fun i j => x.px (i + a) (j + c)⟩

@[simp] theorem slice_lead (a b c d : ℕ) (x : Image V) : (x.slice a b c d).lead = x.lead := rfl

@[simp] theorem slice_height (a b c d : ℕ) (x : Image V) : (x.slice a b c d).height = min b x.height - a := rfl

@[simp] theorem slice_width (a b c d : ℕ) (x : Image V) : (x.slice a b c d).width = min d x.width - c := rfl

/-- `F.pad(x, (0, w - x.shape[-1], 0, h - x.shape[-2]))` -/
def padTo [Zero V] (h w : ℕ) (x : Image V) : Image V :=
  ⟨x.lead, h, w, fun i j => if i < x.height ∧ j < x.width then x.px i j else 0⟩

/-- the same sizes -/
def SameShape (a b : Image V) : Prop := a.lead = b.lead ∧ a.height = b.height ∧ a.width = b.width

instance (a b : Image V) : Decidable (SameShape a b) := inferInstanceAs (Decidable (_ ∧ _))

/-! ## Blends -/

section Blend

variable [Add V] [SMul ℚ V]

/-- the first rows of b mixed with the last rows of a, at most `extent` of them -/
def mixV (a b : Image V) (extent : ℕ) : Image V :=
  { b with px := blendLines (min (min a.height b.height) extent) a.height a.px b.px }

/-- the first columns of b mixed with the last columns of a, at most `extent` of them -/
def mixH (a b : Image V) (extent : ℕ) : Image V :=
  { b with
    px := fun y x =>
      blendLines (min (min a.width b.width) extent) a.width (fun x y => a.px y x) (fun x y => b.px y x) x y }

/-- `mixV`, unless there are rows to add and they differ in length -/
def blendV (a b : Image V) (extent : ℕ) : Except PyErr (Image V) :=
  if min (min a.height b.height) extent = 0 ∨ (a.lead = b.lead ∧ a.width = b.width) then .ok (mixV a b extent)
  else .error ⟨.runtimeError, "The sizes of the tensors must match"⟩

/-- `mixH`, unless there are columns to add and they differ in length -/
def blendH (a b : Image V) (extent : ℕ) : Except PyErr (Image V) :=
  if min (min a.width b.width) extent = 0 ∨ (a.lead = b.lead ∧ a.height = b.height) then .ok (mixH a b extent)
  else .error ⟨.runtimeError, "The sizes of the tensors must match"⟩

theorem blendV_ok {a b : Image V} (hlead : a.lead = b.lead) (hwidth : a.width = b.width) (extent : ℕ) :
    blendV a b extent = .ok (mixV a b extent) := if_pos (Or.inr ⟨hlead, hwidth⟩)

theorem blendH_ok {a b : Image V} (hlead : a.lead = b.lead) (hheight : a.height = b.height) (extent : ℕ) :
    blendH a b extent = .ok (mixH a b extent) := if_pos (Or.inr ⟨hlead, hheight⟩)

theorem mixV_px {a b : Image V} {extent e : ℕ} (he : min (min a.height b.height) extent = e) (y x : ℕ) :
    (mixV a b extent).px y x =
      if y < e then (1 - (y : ℚ) / e) • a.px (a.height - e + y) x + ((y : ℚ) / e) • b.px y x else b.px y x := by
  subst he
  refine (congrFun (blendLines_apply _ _ a.px b.px y) x).trans ?_
  split_ifs <;> rfl

theorem mixH_px {a b : Image V} {extent e : ℕ} (he : min (min a.width b.width) extent = e) (y x : ℕ) :
    (mixH a b extent).px y x =
      if x < e then (1 - (x : ℚ) / e) • a.px y (a.width - e + x) + ((x : ℚ) / e) • b.px y x else b.px y x := by
  subst he
  refine (congrFun (blendLines_apply _ _ (fun x y => a.px y x) (fun x y => b.px y x) x) y).trans ?_
  split_ifs <;> rfl

end Blend

/-! ## Images put together -/

/-- `torch.cat(images, dim=-1)` -/
def catW : List (Image V) → Except PyErr (Image V)
  | [] => .error ⟨.runtimeError, "torch.cat(): expected a non-empty list of Tensors"⟩
  | a :: rest =>
    if ∀ b ∈ rest, b.lead = a.lead ∧ b.height = a.height then
      let columns (b : Image V) : ℕ × (ℕ → ℕ → V) := (b.width, fun x y => b.px y x)
      let r := catLines (columns a) (rest.map columns)
      .ok ⟨a.lead, a.height, r.1, fun y x => r.2 x y⟩
    else .error ⟨.runtimeError, "Sizes of tensors must match except in dimension -1"⟩

/-- `torch.cat(images, dim=-2)` -/
def catH : List (Image V) → Except PyErr (Image V)
  | [] => .error ⟨.runtimeError, "torch.cat(): expected a non-empty list of Tensors"⟩
  | a :: rest =>
    if ∀ b ∈ rest, b.lead = a.lead ∧ b.width = a.width then
      let rows (b : Image V) : ℕ × (ℕ → ℕ → V) := (b.height, b.px)
      let r := catLines (rows a) (rest.map rows)
      .ok ⟨a.lead, r.1, a.width, r.2⟩
    else .error ⟨.runtimeError, "Sizes of tensors must match except in dimension -2"⟩

/-- the images f 0, ..., f m side by side, all S wide but the last, which is no wider -/
theorem catW_ok {S m h : ℕ} {lead : List ℕ} {f : ℕ → Image V} (hS : 0 < S)
    (hf : ∀ j ≤ m, (f j).lead = lead ∧ (f j).height = h) (hwidth : ∀ j < m, (f j).width = S) (hlast : (f m).width ≤ S) :
    ∃ out, catW ((List.range (m + 1)).map f) = .ok out ∧ out.lead = lead ∧ out.height = h ∧
      out.width = m * S + (f m).width ∧
      ∀ y, ∀ x < m * S + (f m).width, out.px y x = (f (x / S)).px y (x % S) := by
  have hsame : ∀ b ∈ (List.range m).map fun j => f (j + 1), b.lead = (f 0).lead ∧ b.height = (f 0).height := by
    intro b hb
    obtain ⟨j, hj, rfl⟩ := List.mem_map.1 hb
    have hjm := List.mem_range.1 hj
    rw [(hf 0 (by omega)).1, (hf 0 (by omega)).2]
    exact hf (j + 1) (by omega)
  obtain ⟨hlen, hline⟩ := catLines_regular (p := fun j => ((f j).width, fun x y => (f j).px y x)) hS hwidth hlast
  rw [map_range_succ, catW, if_pos hsame]
  simp only [List.map_map, Function.comp_def]
  exact ⟨_, rfl, (hf 0 (by omega)).1, (hf 0 (by omega)).2, hlen, fun y x hx => congrFun (hline x hx) y⟩

/-- the images f 0, ..., f m below each other, all S high but the last, which is no higher -/
theorem catH_ok {S m w : ℕ} {lead : List ℕ} {f : ℕ → Image V} (hS : 0 < S)
    (hf : ∀ j ≤ m, (f j).lead = lead ∧ (f j).width = w) (hheight : ∀ j < m, (f j).height = S)
    (hlast : (f m).height ≤ S) :
    ∃ out, catH ((List.range (m + 1)).map f) = .ok out ∧ out.lead = lead ∧ out.width = w ∧
      out.height = m * S + (f m).height ∧
      ∀ x, ∀ y < m * S + (f m).height, out.px y x = (f (y / S)).px (y % S) x := by
  have hsame : ∀ b ∈ (List.range m).map fun j => f (j + 1), b.lead = (f 0).lead ∧ b.width = (f 0).width := by
    intro b hb
    obtain ⟨j, hj, rfl⟩ := List.mem_map.1 hb
    have hjm := List.mem_range.1 hj
    rw [(hf 0 (by omega)).1, (hf 0 (by omega)).2]
    exact hf (j + 1) (by omega)
  obtain ⟨hlen, hline⟩ := catLines_regular (p := fun j => ((f j).height, (f j).px)) hS hheight hlast
  rw [map_range_succ, catH, if_pos hsame]
  simp only [List.map_map, Function.comp_def]
  exact ⟨_, rfl, (hf 0 (by omega)).1, (hf 0 (by omega)).2, hlen, fun x y hy => congrFun (hline y hy) x⟩

end Image

/-- images of one shape, stacked along two new axes in front -/
structure Stack (V : Type) where
  rows : ℕ
  columns : ℕ
  lead : List ℕ
  height : ℕ
  width : ℕ
  px : ℕ → ℕ → ℕ → ℕ → V

/-- `torch.stack` of the rows of a table, and then of the results -/
def stack (n m : ℕ) (g : ℕ → ℕ → Image V) : Except PyErr (Stack V) :=
  if n = 0 ∨ m = 0 then .error ⟨.runtimeError, "stack expects a non-empty TensorList"⟩
  else if ∀ i < n, ∀ j < m, (g i j).SameShape (g 0 0) then
    .ok ⟨n, m, (g 0 0).lead, (g 0 0).height, (g 0 0).width, fun i j => (g i j).px⟩
  else .error ⟨.runtimeError, "stack expects each tensor to be equal size"⟩

theorem stack_ok {n m h w : ℕ} {lead : List ℕ} {g : ℕ → ℕ → Image V} (hn : 0 < n) (hm : 0 < m)
    (hg : ∀ i < n, ∀ j < m, (g i j).lead = lead ∧ (g i j).height = h ∧ (g i j).width = w) :
    stack n m g = .ok ⟨n, m, lead, h, w, fun i j => (g i j).px⟩ := by
  obtain ⟨hlead, hheight, hwidth⟩ := hg 0 hn 0 hm
  have hsame : ∀ i < n, ∀ j < m, (g i j).SameShape (g 0 0) := by
    intro i hi j hj
    rw [Image.SameShape, hlead, hheight, hwidth]
    exact hg i hi j hj
  rw [stack, if_neg (by omega), if_pos hsame, hlead, hheight, hwidth]

end Viduce
