/-
Temporal upsampling of a clip from a keyframe mask (`ops/temporal.py`). A clip is a tensor [t, c, h, w], the mask one
Boolean for each output frame.
-/
import Mathlib.Tactic
import Viduce.Core.Py
import Viduce.Core.Tensor

namespace Viduce.Temporal

/-- positions the mask sets (`torch.where(msk)[0]`) -/
def keptIndices (msk : List Bool) : List ℕ := (List.range msk.length).filter fun i => msk.getD i false

/-- position of the first least element (`argmin`) -/
def argmin (l : List ℕ) : ℕ := l.findIdx fun v => l.all fun u => decide (v ≤ u)

/-- for each output position, the number of the keyframe nearest to it -/
def nearestKept (msk : List Bool) : List ℕ :=
  (List.range msk.length).map fun p => argmin ((keptIndices msk).map fun k : ℕ => ((p : ℤ) - (k : ℤ)).natAbs)

/-- the `mode` argument -/
inductive Mode where
  | nearest
  | pad
  | unsupported (name : String)
deriving DecidableEq, Repr

/-- `upsample_temporal`; `zero` is the value `torch.zeros` fills with -/
def upsampleTemporal {α : Type} (zero : α) (x : Tensor α) (msk : List Bool) : Mode → Except PyErr (Tensor α)
  | .pad =>
    let n := (keptIndices msk).length
    let t := x.dim0
    -- `tmp[msk] = x` stores frame j at the j-th set position; a single frame is broadcast
    if t = n ∨ t = 1 then
      .ok { shape := msk.length :: x.shape.tail
            get := fun
              | [] => zero
              | p :: idx => if msk.getD p false then
                  x.get ((if t = 1 then 0 else (msk.take p).count true) :: idx) else zero }
    else .error ⟨.runtimeError, s!"shape mismatch: value tensor of {t} frames cannot be broadcast to {n} positions"⟩
  | .nearest =>
    if keptIndices msk = [] then
      .error ⟨.indexError, "argmin(): Expected reduction dim 1 to have non-zero size."⟩
    else if (nearestKept msk).any fun i => x.dim0 ≤ i then
      .error ⟨.indexError, s!"index is out of bounds for dimension 0 with size {x.dim0}"⟩
    else .ok (x.indexSelect (nearestKept msk))
  | .unsupported name => .error ⟨.notImplementedError, s!"Unsupported temporal upsampling mode: {name}"⟩

theorem mem_keptIndices {msk : List Bool} {i : ℕ} : i ∈ keptIndices msk ↔ msk[i]? = some true := by
  simp only [keptIndices, List.mem_filter, List.mem_range, List.getD_eq_getElem?_getD]
  refine ⟨?_, ?_⟩
  · intro h
    rcases h with ⟨h, hi⟩
    simpa [List.getElem?_eq_getElem h] using hi
  · intro h
    obtain ⟨hlt, -⟩ := List.getElem?_eq_some_iff.1 h
    exact ⟨hlt, by simp [h]⟩

/-- the first least element is an element: `argmin` of a nonempty list is a position of it -/
theorem argmin_lt {l : List ℕ} (h : l ≠ []) : argmin l < l.length := by
  rw [argmin, List.findIdx_lt_length]
  obtain ⟨v, hv, hmin⟩ := l.toFinset.exists_min_image id (List.toFinset_nonempty_iff l |>.2 h)
  exact ⟨v, List.mem_toFinset.1 hv, by simpa using hmin⟩

theorem nearestKept_lt {msk : List Bool} (h : keptIndices msk ≠ []) :
    ∀ i ∈ nearestKept msk, i < (keptIndices msk).length := by
  intro i hi
  obtain ⟨p, -, rfl⟩ := List.mem_map.1 hi
  have := argmin_lt (l := (keptIndices msk).map fun k : ℕ => ((p : ℤ) - (k : ℤ)).natAbs)
    (by simpa only [ne_eq, List.map_eq_nil_iff] using h)
  simpa using this

/-- the nearest mode succeeds when some position is set and every set position has its frame -/
theorem upsampleTemporal_nearest {α : Type} (zero : α) (x : Tensor α) {msk : List Bool}
    (h : keptIndices msk ≠ []) (hx : (keptIndices msk).length ≤ x.dim0) :
    upsampleTemporal zero x msk .nearest = .ok (x.indexSelect (nearestKept msk)) := by
  have hany : ((nearestKept msk).any fun i => x.dim0 ≤ i) = false := by
    rw [List.any_eq_false]
    intro i hi
    have := nearestKept_lt h i hi
    simp only [decide_eq_true_eq]
    omega
  simp only [upsampleTemporal, if_neg h, hany, Bool.false_eq_true, if_false]

end Viduce.Temporal
