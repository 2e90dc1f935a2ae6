/-
Overlapping tiles. A line of length H is covered by tiles of length M at distances of S; the tiles at its end are cut
there. In the plane the tiles stand in rows and columns, and each is blended with the tile above it and then with the tile
to its left, both blended before. Nothing here names a program.

- `overlap_extent`: two neighbours overlap by what is left of the first one after S, the ones at the end included, so a
  blend of the overlap mixes lines of the same position.
- `blended_mem`: after blending, each value of a tile is a convex combination of what the tiles have at its position.
- `blendGrid_ok`: blending in place, row by row, does that.
- `assemble_ok`: the tiles without their overlaps make up the whole.
- `blend_assemble_ok`, `blend_stack_ok`: the two together, for tiles cut at the end of the line and for tiles of one size.
-/
import Mathlib.Tactic
import Viduce.Core.Image

namespace Viduce.Overlap

variable {V : Type}

/-! ## The line -/

/-- `len(range(0, H, S))` -/
def count (S H : ℕ) : ℕ := (H + S - 1) / S

/-- the length of tile i -/
def extent (M S H i : ℕ) : ℕ := min M (H - i * S)

theorem lt_count {S : ℕ} (hS : 0 < S) (H i : ℕ) : i < count S H ↔ i * S < H := by
  rw [count, Nat.lt_iff_add_one_le, Nat.le_div_iff_mul_le hS, Nat.succ_mul]
  omega

theorem count_pos {S H : ℕ} (hS : 0 < S) (hH : 0 < H) : 0 < count S H := by
  rw [lt_count hS, Nat.zero_mul]
  exact hH

/-- the last tile begins in the line and leaves no more than S of it -/
theorem count_succ {S H m : ℕ} (hS : 0 < S) (hm : count S H = m + 1) : m * S < H ∧ H ≤ m * S + S := by
  have hlast := (lt_count hS H m).1 (by omega)
  have hnext := (lt_count hS H (m + 1)).not.1 (by omega)
  rw [Nat.succ_mul] at hnext
  exact ⟨hlast, by omega⟩

/-- **Neighbours overlap by what is left after S.** -/
theorem overlap_extent {M S H i : ℕ} (hSM : S ≤ M) (h : (i + 1) * S < H) :
    S ≤ extent M S H i ∧ min (min (extent M S H i) (extent M S H (i + 1))) (M - S) = extent M S H i - S := by
  rw [Nat.succ_mul] at h
  rw [extent, extent, Nat.succ_mul]
  omega

/-- a position is in the tile that begins S or less before it -/
theorem mod_lt_extent {M S H Y : ℕ} (hS : 0 < S) (hSM : S ≤ M) (hY : Y < H) : Y % S < extent M S H (Y / S) := by
  have hmod := Nat.mod_lt Y hS
  have hdiv : Y / S * S + Y % S = Y := Nat.div_add_mod' Y S
  rw [extent]
  omega

theorem div_lt_count {S H Y : ℕ} (hS : 0 < S) (hY : Y < H) : Y / S < count S H :=
  (lt_count hS H _).2 ((Nat.div_mul_le_self Y S).trans_lt hY)

/-- the tiles cover the line -/
theorem le_count_mul {S : ℕ} (hS : 0 < S) (H : ℕ) : H ≤ count S H * S := by
  have hend := (lt_count hS H (count S H)).not.1 (lt_irrefl _)
  omega

/-- a line r times as long, with tiles r times as long at distances r times as long -/
theorem count_mul {r S : ℕ} (hr : 0 < r) (hS : 0 < S) (H : ℕ) : count (r * S) (r * H) = count S H := by
  refine eq_of_forall_lt_iff fun i => ?_
  rw [lt_count (Nat.mul_pos hr hS), lt_count hS, Nat.mul_left_comm, Nat.mul_lt_mul_left hr]

theorem extent_mul (r M S H i : ℕ) : extent (r * M) (r * S) (r * H) i = r * extent M S H i := by
  rw [extent, extent, Nat.mul_left_comm i r S, ← Nat.mul_sub, ← Nat.mul_min_mul_left]

/-- tiles of these lengths at distances of S, of which a blend over at most D lines mixes lines of the same position -/
def Aligned (S D n : ℕ) (length : ℕ → ℕ) : Prop :=
  ∀ i, i + 1 < n → S ≤ length i ∧ min (min (length i) (length (i + 1))) D = length i - S

theorem aligned_extent {M S : ℕ} (hS : 0 < S) (hSM : S ≤ M) (H : ℕ) : Aligned S (M - S) (count S H) (extent M S H) :=
  fun i hi => overlap_extent hSM ((lt_count hS H (i + 1)).1 hi)

theorem aligned_const {M S : ℕ} (hSM : S ≤ M) (n : ℕ) : Aligned S (M - S) n fun _ => M := by
  intro i hi
  rw [Nat.min_self]
  exact ⟨hSM, Nat.min_eq_right (Nat.sub_le M S)⟩

/-! ## Blending -/

section Blend

variable [AddCommGroup V] [Module ℚ V]

/-- tile (i, j) blended with the ones above and to the left -/
def blended (dv dh : ℕ) (tile : ℕ → ℕ → Image V) : ℕ → ℕ → Image V
  | 0, 0 => tile 0 0
  | 0, j + 1 => Image.mixH (blended dv dh tile 0 j) (tile 0 (j + 1)) dh
  | i + 1, 0 => Image.mixV (blended dv dh tile i 0) (tile (i + 1) 0) dv
  | i + 1, j + 1 =>
    Image.mixH (blended dv dh tile (i + 1) j) (Image.mixV (blended dv dh tile i (j + 1)) (tile (i + 1) (j + 1)) dv) dh

/-- what the tiles have at a position -/
def assigned (sv sh n m : ℕ) (tile : ℕ → ℕ → Image V) (Y X : ℕ) : Set V :=
  {v | ∃ i < n, ∃ j < m, ∃ y < (tile i j).height, ∃ x < (tile i j).width,
    i * sv + y = Y ∧ j * sh + x = X ∧ (tile i j).px y x = v}

/-- the image at an offset has values of these sets -/
def Within (C : ℕ → ℕ → Set V) (A B : ℕ) (a : Image V) : Prop :=
  ∀ y < a.height, ∀ x < a.width, a.px y x ∈ C (A + y) (B + x)

theorem mix_mem {s : Set V} (hs : Convex ℚ s) {p q : V} (hp : p ∈ s) (hq : q ∈ s) {y e : ℕ} (hy : y < e) :
    (1 - (y : ℚ) / e) • p + ((y : ℚ) / e) • q ∈ s := by
  have he : (0 : ℚ) < e := by exact_mod_cast (Nat.zero_le y).trans_lt hy
  have hle : (y : ℚ) / e ≤ 1 := by
    rw [div_le_one he]
    exact_mod_cast hy.le
  exact hs hp hq (sub_nonneg.2 hle) (by positivity) (sub_add_cancel 1 _)

/-- mixing the overlap of two images in a column -/
theorem mixV_within {C : ℕ → ℕ → Set V} (hC : ∀ Y X, Convex ℚ (C Y X)) {S D A B : ℕ} {a b : Image V}
    (ha : Within C A B a) (hb : Within C (A + S) B b) (hwidth : a.width = b.width)
    (hoverlap : S ≤ a.height ∧ min (min a.height b.height) D = a.height - S) :
    Within C (A + S) B (Image.mixV a b D) := by
  intro y hy x hx
  rw [Image.mixV_px hoverlap.2]
  split_ifs with hmix
  · have hline : a.height - (a.height - S) + y = S + y := by omega
    have hlast : a.px (S + y) x ∈ C (A + S + y) (B + x) := by
      rw [Nat.add_assoc]
      exact ha (S + y) (by omega) x (hwidth ▸ hx)
    rw [hline]
    exact mix_mem (hC _ _) hlast (hb y hy x hx) hmix
  · exact hb y hy x hx

/-- mixing the overlap of two images in a row -/
theorem mixH_within {C : ℕ → ℕ → Set V} (hC : ∀ Y X, Convex ℚ (C Y X)) {S D A B : ℕ} {a b : Image V}
    (ha : Within C A B a) (hb : Within C A (B + S) b) (hheight : a.height = b.height)
    (hoverlap : S ≤ a.width ∧ min (min a.width b.width) D = a.width - S) :
    Within C A (B + S) (Image.mixH a b D) := by
  intro y hy x hx
  rw [Image.mixH_px hoverlap.2]
  split_ifs with hmix
  · have hline : a.width - (a.width - S) + x = S + x := by omega
    have hlast : a.px y (S + x) ∈ C (A + y) (B + S + x) := by
      rw [Nat.add_assoc]
      exact ha y (hheight ▸ hy) (S + x) (by omega)
    rw [hline]
    exact mix_mem (hC _ _) hlast (hb y hy x hx) hmix
  · exact hb y hy x hx

/-- tiles in rows and columns: those of a row have one height, those of a column one width -/
def Arranged (n m : ℕ) (lead : List ℕ) (height width : ℕ → ℕ) (tile : ℕ → ℕ → Image V) : Prop :=
  ∀ i < n, ∀ j < m, (tile i j).lead = lead ∧ (tile i j).height = height i ∧ (tile i j).width = width j

omit [AddCommGroup V] [Module ℚ V] in
theorem tile_within {n m sv sh : ℕ} {tile : ℕ → ℕ → Image V} {C : ℕ → ℕ → Set V}
    (hC : ∀ Y X, assigned sv sh n m tile Y X ⊆ C Y X) {i j : ℕ} (hi : i < n) (hj : j < m) :
    Within C (i * sv) (j * sh) (tile i j) :=
  fun y hy x hx => hC _ _ ⟨i, hi, j, hj, y, hy, x, hx, rfl, rfl, rfl⟩

variable {n m sv sh dv dh : ℕ} {lead : List ℕ} {height width : ℕ → ℕ} {tile : ℕ → ℕ → Image V}

/-- blending a tile with the one above it, blended already -/
theorem above_within (htile : Arranged n m lead height width tile) (hv : Aligned sv dv n height) {C : ℕ → ℕ → Set V}
    (hconvex : ∀ Y X, Convex ℚ (C Y X)) (hC : ∀ Y X, assigned sv sh n m tile Y X ⊆ C Y X) {i j : ℕ} (hi : i + 1 < n)
    (hj : j < m) {a : Image V} (ha : a.SameShape (tile i j)) (hwithin : Within C (i * sv) (j * sh) a) :
    Within C ((i + 1) * sv) (j * sh) (Image.mixV a (tile (i + 1) j) dv) := by
  obtain ⟨-, hheight, hwidth⟩ := htile i (by omega) j hj
  obtain ⟨-, hheight', hwidth'⟩ := htile (i + 1) hi j hj
  have hb := tile_within hC hi hj
  rw [Nat.succ_mul] at hb ⊢
  refine mixV_within hconvex hwithin hb (by rw [ha.2.2, hwidth, hwidth']) ?_
  rw [ha.2.1, hheight, hheight']
  exact hv i hi

/-- blending it then with the one to its left, blended already -/
theorem left_within (htile : Arranged n m lead height width tile) (hh : Aligned sh dh m width) {C : ℕ → ℕ → Set V}
    (hconvex : ∀ Y X, Convex ℚ (C Y X)) {i j : ℕ} (hi : i < n) (hj : j + 1 < m) {a b : Image V}
    (ha : a.SameShape (tile i j)) (hwithin : Within C (i * sv) (j * sh) a) (hb : b.SameShape (tile i (j + 1)))
    (hwithin' : Within C (i * sv) ((j + 1) * sh) b) : Within C (i * sv) ((j + 1) * sh) (Image.mixH a b dh) := by
  obtain ⟨-, hheight, hwidth⟩ := htile i hi j (by omega)
  obtain ⟨-, hheight', hwidth'⟩ := htile i hi (j + 1) hj
  rw [Nat.succ_mul] at hwithin' ⊢
  refine mixH_within hconvex hwithin hwithin' (by rw [ha.2.1, hb.2.1, hheight, hheight']) ?_
  rw [ha.2.2, hb.2.2, hwidth, hwidth']
  exact hh j hj

/-- blending leaves the shapes as they are -/
theorem blended_shape (dv dh : ℕ) (tile : ℕ → ℕ → Image V) (i j : ℕ) : (blended dv dh tile i j).SameShape (tile i j) := by
  cases i <;> cases j <;> rw [blended] <;> exact ⟨rfl, rfl, rfl⟩

/-- **Blending stays within.** Convex sets that have what the tiles assign to a position have what is there after
blending. -/
theorem blended_within (htile : Arranged n m lead height width tile) (hv : Aligned sv dv n height)
    (hh : Aligned sh dh m width) {C : ℕ → ℕ → Set V} (hconvex : ∀ Y X, Convex ℚ (C Y X))
    (hC : ∀ Y X, assigned sv sh n m tile Y X ⊆ C Y X) {i j : ℕ} (hi : i < n) (hj : j < m) :
    Within C (i * sv) (j * sh) (blended dv dh tile i j) := by
  induction i generalizing j with
  | zero =>
    induction j with
    | zero =>
      rw [blended]
      exact tile_within hC hi hj
    | succ j ihj =>
      rw [blended]
      exact left_within htile hh hconvex hi hj (blended_shape ..) (ihj (by omega)) ⟨rfl, rfl, rfl⟩ (tile_within hC hi hj)
  | succ i ih =>
    have habove : ∀ j < m, Within C ((i + 1) * sv) (j * sh)
        (Image.mixV (blended dv dh tile i j) (tile (i + 1) j) dv) :=
      fun j hj => above_within htile hv hconvex hC hi hj (blended_shape ..) (ih (by omega) hj)
    induction j with
    | zero =>
      rw [blended]
      exact habove 0 hj
    | succ j ihj =>
      rw [blended]
      exact left_within htile hh hconvex hi hj (blended_shape ..) (ihj (by omega)) ⟨rfl, rfl, rfl⟩ (habove (j + 1) hj)

/-- **Blended values are combinations of values of the same position.** -/
theorem blended_mem (htile : Arranged n m lead height width tile) (hv : Aligned sv dv n height)
    (hh : Aligned sh dh m width) {i j y x : ℕ} (hi : i < n) (hj : j < m) (hy : y < height i) (hx : x < width j) :
    (blended dv dh tile i j).px y x ∈ convexHull ℚ (assigned sv sh n m tile (i * sv + y) (j * sh + x)) := by
  obtain ⟨-, hheight, hwidth⟩ := htile i hi j hj
  obtain ⟨-, hheight', hwidth'⟩ := blended_shape dv dh tile i j
  refine blended_within htile hv hh (fun _ _ => convex_convexHull ℚ _) (fun _ _ => subset_convexHull ℚ _) hi hj y ?_ x ?_
  · rwa [hheight', hheight]
  · rwa [hwidth', hwidth]

/-! ## Blending in place -/

/-- blends tile (i, j) of the table, as it is by now, with its neighbours, as they are by now -/
def blendTile (dv dh : ℕ) (g : ℕ → ℕ → Image V) (i j : ℕ) : Except PyErr (Image V) :=
  (if 0 < i then Image.blendV (g (i - 1) j) (g i j) dv else .ok (g i j)) >>= fun tile =>
    if 0 < j then Image.blendH (g i (j - 1)) tile dh else .ok tile

/-- one tile, once its neighbours are blended -/
theorem blendTile_ok (dv dh : ℕ) (htile : Arranged n m lead height width tile) {i j : ℕ} (hi : i < n) (hj : j < m)
    {g : ℕ → ℕ → Image V} (hself : g i j = tile i j) (habove : ∀ k, i = k + 1 → g k j = blended dv dh tile k j)
    (hleft : ∀ k, j = k + 1 → g i k = blended dv dh tile i k) : blendTile dv dh g i j = .ok (blended dv dh tile i j) := by
  have hshape : ∀ i < n, ∀ j < m, (blended dv dh tile i j).lead = lead ∧ (blended dv dh tile i j).height = height i ∧
      (blended dv dh tile i j).width = width j := by
    intro i hi j hj
    obtain ⟨hlead, hheight, hwidth⟩ := blended_shape dv dh tile i j
    rw [hlead, hheight, hwidth]
    exact htile i hi j hj
  obtain ⟨hlead, hheight, hwidth⟩ := htile i hi j hj
  cases i with
  | zero =>
    cases j with
    | zero => rw [blendTile, if_neg (lt_irrefl 0), ok_bind, if_neg (lt_irrefl 0), hself, blended]
    | succ j =>
      obtain ⟨hlead', hheight', -⟩ := hshape 0 hi j (by omega)
      rw [blendTile, if_neg (lt_irrefl 0), ok_bind, if_pos (Nat.succ_pos j), Nat.add_sub_cancel, hself, hleft j rfl, blended]
      exact Image.blendH_ok (hlead'.trans hlead.symm) (hheight'.trans hheight.symm) dh
  | succ i =>
    obtain ⟨hlead', -, hwidth'⟩ := hshape i (by omega) j hj
    have hmix : Image.blendV (blended dv dh tile i j) (tile (i + 1) j) dv =
        .ok (Image.mixV (blended dv dh tile i j) (tile (i + 1) j) dv) :=
      Image.blendV_ok (hlead'.trans hlead.symm) (hwidth'.trans hwidth.symm) dv
    rw [blendTile, if_pos (Nat.succ_pos i), Nat.add_sub_cancel, hself, habove i rfl, hmix, ok_bind]
    cases j with
    | zero => rw [if_neg (lt_irrefl 0), blended]
    | succ j =>
      obtain ⟨hlead'', hheight'', -⟩ := hshape (i + 1) hi j (by omega)
      rw [if_pos (Nat.succ_pos j), Nat.add_sub_cancel, hleft j rfl, blended]
      apply Image.blendH_ok
      · exact hlead''.trans hlead.symm
      · exact hheight''.trans hheight.symm

/-- **In place.** Row by row, each tile blended in the table that its blending changes: the table of the blended tiles. -/
theorem blendGrid_ok (dv dh : ℕ) (htile : Arranged n m lead height width tile) :
    ∃ g, forGrid n m (blendTile dv dh) tile = .ok g ∧ ∀ i < n, ∀ j < m, g i j = blended dv dh tile i j := by
  refine forGrid_ok fun i hi j hj g hg => blendTile_ok dv dh htile hi hj ?_ ?_ ?_
  · rw [hg i j hj, if_neg (by unfold Earlier; omega)]
  · intro k hk
    rw [hg k j hj, if_pos (by unfold Earlier; omega)]
  · intro k hk
    rw [hg i k (by omega), if_pos (by unfold Earlier; omega)]

end Blend

/-! ## The whole -/

/-- the tiles cut to s by s', rows of them, and the rows below each other -/
def assemble (n m sv sh : ℕ) (g : ℕ → ℕ → Image V) : Except PyErr (Image V) := do
  let rows ← (List.range n).mapM fun i => Image.catW ((List.range m).map fun j => (g i j).slice 0 sv 0 sh)
  Image.catH rows

/-- where the tiles before the last one are cut, and what is left of the last one -/
theorem cut_extent {M S H n : ℕ} (hS : 0 < S) (hSM : S ≤ M) (hn : count S H = n + 1) :
    (∀ i < n, min S (extent M S H i) = S) ∧ min S (extent M S H n) ≤ S ∧ n * S + min S (extent M S H n) = H := by
  obtain ⟨hlt, hle⟩ := count_succ hS hn
  refine ⟨fun i hi => ?_, Nat.min_le_left _ _, ?_⟩
  · have hnext := (lt_count hS H (i + 1)).1 (by omega)
    exact Nat.min_eq_left (overlap_extent hSM hnext).1
  · rw [extent]
    omega

/-- one row: the tiles cut to s by S, of which the last one ends the line -/
theorem row_ok {M S W m s : ℕ} {lead : List ℕ} {h : ℕ} {f : ℕ → Image V} (hS : 0 < S) (hSM : S ≤ M)
    (hm : count S W = m + 1) (hf : ∀ j < m + 1, (f j).lead = lead ∧ (f j).height = h ∧ (f j).width = extent M S W j) :
    ∃ row, Image.catW ((List.range (m + 1)).map fun j => (f j).slice 0 s 0 S) = .ok row ∧ row.lead = lead ∧
      row.height = min s h ∧ row.width = W ∧ ∀ y, ∀ X < W, row.px y X = (f (X / S)).px y (X % S) := by
  obtain ⟨hcut, hcutle, hend⟩ := cut_extent hS hSM hm
  have hwidth : ∀ j < m + 1, ((f j).slice 0 s 0 S).width = min S (extent M S W j) := by
    intro j hj
    rw [Image.slice_width, (hf j hj).2.2, Nat.sub_zero]
  have hsame : ∀ j ≤ m, ((f j).slice 0 s 0 S).lead = lead ∧ ((f j).slice 0 s 0 S).height = min s h := by
    intro j hj
    obtain ⟨hlead, hheight, -⟩ := hf j (by omega)
    rw [Image.slice_lead, Image.slice_height, hlead, hheight, Nat.sub_zero]
    exact ⟨rfl, rfl⟩
  obtain ⟨row, hrow, hlead, hheight, hlen, hpx⟩ := Image.catW_ok (f := fun j => (f j).slice 0 s 0 S) hS hsame
    (fun j hj => by rw [hwidth j (by omega), hcut j hj]) (by rw [hwidth m (by omega)]; exact hcutle)
  rw [hwidth m (by omega), hend] at hlen hpx
  exact ⟨row, hrow, hlead, hheight, hlen, hpx⟩

/-- **The tiles without their overlaps.** They make up an image of the lengths of the lines, and each of its positions
is read in the last tile that begins before it. -/
theorem assemble_ok {M M' S S' H W : ℕ} {lead : List ℕ} {g : ℕ → ℕ → Image V} (hS : 0 < S) (hSM : S ≤ M) (hS' : 0 < S')
    (hSM' : S' ≤ M') (hH : 0 < H) (hW : 0 < W)
    (hg : Arranged (count S H) (count S' W) lead (extent M S H) (extent M' S' W) g) :
    ∃ out, assemble (count S H) (count S' W) S S' g = .ok out ∧ out.lead = lead ∧ out.height = H ∧ out.width = W ∧
      ∀ Y < H, ∀ X < W, out.px Y X = (g (Y / S) (X / S')).px (Y % S) (X % S') := by
  obtain ⟨n, hn⟩ := Nat.exists_eq_succ_of_ne_zero (count_pos hS hH).ne'
  obtain ⟨m, hm⟩ := Nat.exists_eq_succ_of_ne_zero (count_pos hS' hW).ne'
  have hrowOf : ∀ Y < H, Y / S < n + 1 := fun Y hY => (div_lt_count hS hY).trans_eq hn
  rw [hn, hm] at hg ⊢
  obtain ⟨hcut, hcutle, hend⟩ := cut_extent hS hSM hn
  have : Nonempty (Image V) := ⟨g 0 0⟩
  choose! row hrow hlead hheight hwidth hpx using fun i (hi : i < n + 1) => row_ok (s := S) hS' hSM' hm (hg i hi)
  have hrows : (List.range (n + 1)).mapM (fun i => Image.catW ((List.range (m + 1)).map fun j => (g i j).slice 0 S 0 S')) =
      .ok ((List.range (n + 1)).map row) := mapM_ok fun i hi => hrow i (List.mem_range.1 hi)
  have hsame : ∀ i ≤ n, (row i).lead = lead ∧ (row i).width = W :=
    fun i hi => ⟨hlead i (by omega), hwidth i (by omega)⟩
  obtain ⟨out, hout, houtlead, houtwidth, houtheight, houtpx⟩ := Image.catH_ok hS hsame
    (fun i hi => by rw [hheight i (by omega), hcut i hi]) (by rw [hheight n (by omega)]; exact hcutle)
  rw [hheight n (by omega), hend] at houtheight houtpx
  refine ⟨out, by rw [assemble, hrows, ok_bind, hout], houtlead, houtheight, houtwidth, fun Y hY X hX => ?_⟩
  rw [houtpx X Y hY, hpx _ (hrowOf Y hY) _ X hX]

section Whole

variable [AddCommGroup V] [Module ℚ V]

/-- **Blended and put together.** Tiles of the lengths of the lines make up an image of the lengths of the lines whose
values are convex combinations of what the tiles have at their position. -/
theorem blend_assemble_ok {M M' S S' H W : ℕ} {lead : List ℕ} {tile : ℕ → ℕ → Image V} (hS : 0 < S) (hSM : S ≤ M)
    (hS' : 0 < S') (hSM' : S' ≤ M') (hH : 0 < H) (hW : 0 < W)
    (htile : Arranged (count S H) (count S' W) lead (extent M S H) (extent M' S' W) tile) :
    ∃ out, (forGrid (count S H) (count S' W) (blendTile (M - S) (M' - S')) tile >>=
        assemble (count S H) (count S' W) S S') = .ok out ∧ out.lead = lead ∧ out.height = H ∧ out.width = W ∧
      ∀ Y < H, ∀ X < W, out.px Y X ∈ convexHull ℚ (assigned S S' (count S H) (count S' W) tile Y X) := by
  obtain ⟨g, hg, hblended⟩ := blendGrid_ok (M - S) (M' - S') htile
  have harranged : Arranged (count S H) (count S' W) lead (extent M S H) (extent M' S' W) g := by
    intro i hi j hj
    obtain ⟨hlead, hheight, hwidth⟩ := blended_shape (M - S) (M' - S') tile i j
    rw [hblended i hi j hj, hlead, hheight, hwidth]
    exact htile i hi j hj
  obtain ⟨out, hout, hlead, hheight, hwidth, hpx⟩ := assemble_ok hS hSM hS' hSM' hH hW harranged
  refine ⟨out, by rw [hg, ok_bind, hout], hlead, hheight, hwidth, fun Y hY X hX => ?_⟩
  have hrow := div_lt_count hS hY
  have hcolumn := div_lt_count hS' hX
  have hmem := blended_mem htile (aligned_extent hS hSM H) (aligned_extent hS' hSM' W) hrow hcolumn
    (mod_lt_extent hS hSM hY) (mod_lt_extent hS' hSM' hX)
  rw [Nat.div_add_mod', Nat.div_add_mod'] at hmem
  rw [hpx Y hY X hX, hblended _ hrow _ hcolumn]
  exact hmem

/-- **Blended, cut and stacked.** Tiles of one shape, cut to S by S', make up an image of n * S by m * S' with such
values. -/
theorem blend_stack_ok {M M' S S' n m : ℕ} {lead : List ℕ} {tile : ℕ → ℕ → Image V} (hS : 0 < S) (hSM : S ≤ M)
    (hS' : 0 < S') (hSM' : S' ≤ M') (hn : 0 < n) (hm : 0 < m)
    (htile : Arranged n m lead (fun _ => M) (fun _ => M') tile) :
    ∃ st, (forGrid n m (blendTile (M - S) (M' - S')) tile >>= fun g =>
        stack n m fun i j => (g i j).slice 0 S 0 S') = .ok st ∧
      st.rows = n ∧ st.columns = m ∧ st.lead = lead ∧ st.height = S ∧ st.width = S' ∧
      ∀ Y < n * S, ∀ X < m * S', st.px (Y / S) (X / S') (Y % S) (X % S') ∈ convexHull ℚ (assigned S S' n m tile Y X) := by
  obtain ⟨g, hg, hblended⟩ := blendGrid_ok (M - S) (M' - S') htile
  have hcut : ∀ i < n, ∀ j < m, ((g i j).slice 0 S 0 S').lead = lead ∧ ((g i j).slice 0 S 0 S').height = S ∧
      ((g i j).slice 0 S 0 S').width = S' := by
    intro i hi j hj
    obtain ⟨hlead, hheight, hwidth⟩ := blended_shape (M - S) (M' - S') tile i j
    obtain ⟨hlead', hheight', hwidth'⟩ := htile i hi j hj
    rw [Image.slice_lead, Image.slice_height, Image.slice_width, hblended i hi j hj, hlead, hheight, hwidth, hlead',
      hheight', hwidth']
    exact ⟨rfl, Nat.min_eq_left hSM, Nat.min_eq_left hSM'⟩
  refine ⟨_, by rw [hg, ok_bind, stack_ok hn hm hcut], rfl, rfl, rfl, rfl, rfl, fun Y hY X hX => ?_⟩
  have hrow : Y / S < n := Nat.div_lt_of_lt_mul (Nat.mul_comm n S ▸ hY)
  have hcolumn : X / S' < m := Nat.div_lt_of_lt_mul (Nat.mul_comm m S' ▸ hX)
  have hmem := blended_mem htile (aligned_const hSM n) (aligned_const hSM' m) hrow hcolumn
    ((Nat.mod_lt Y hS).trans_le hSM) ((Nat.mod_lt X hS').trans_le hSM')
  rw [Nat.div_add_mod', Nat.div_add_mod'] at hmem
  show (g (Y / S) (X / S')).px (Y % S) (X % S') ∈ _
  rw [hblended _ hrow _ hcolumn]
  exact hmem

end Whole

end Viduce.Overlap
