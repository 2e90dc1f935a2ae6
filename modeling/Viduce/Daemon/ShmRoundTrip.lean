/-
Frames through shared memory: what a write leaves in the buffer and what a read finds there.

- `RoundTrip`: the write returns T, pixel (t, y, x, c) lies at byte ((t H + y) W + x) C + c, the bytes behind the frames
  are as they were, and reading T frames gives the frames back as [T, C, H, W].
- `roundTrip_iff`: it holds exactly when the writer's guess of the layout is right (`GuessedRight`), and a write that
  raises never changes the buffer.
- `narrow_rgb_refused`: a documented [T, C, H, W] tensor three pixels wide is taken for [T, H, W, C] and refused.
-/
import Mathlib.Tactic
import Viduce.Daemon.Shm

namespace Viduce.Shm

/-! ## Layouts -/

/-- the two documented layouts -/
inductive Layout where
  | tchw
  | thwc
deriving DecidableEq, Repr

/-- the shape of t frames -/
def Layout.shape (g : Geometry) (t : ℕ) : Layout → List ℕ
  | .tchw => [t, g.channels, g.height, g.width]
  | .thwc => [t, g.height, g.width, g.channels]

/-- pixel (t, y, x, c) -/
def Layout.pixel (tensor : Tensor UInt8) (t y x c : ℕ) : Layout → UInt8
  | .tchw => tensor.get [t, c, y, x]
  | .thwc => tensor.get [t, y, x, c]

/-- position of pixel (t, y, x, c) in the buffer -/
def Geometry.offset (g : Geometry) (t y x c : ℕ) : ℕ := ((t * g.height + y) * g.width + x) * g.channels + c

/-- a pixel of the first T frames -/
structure Geometry.Inside (g : Geometry) (T t y x c : ℕ) : Prop where
  frame : t < T
  row : y < g.height
  column : x < g.width
  channel : c < g.channels

/-- writing T frames of the geometry and reading them back -/
structure RoundTrip (g : Geometry) (l : Layout) (T : ℕ) (tensor : Tensor UInt8) (buf buf' : List UInt8) : Prop where
  returns : (writeTensor g tensor).run buf = (.ok T, buf')
  stored : ∀ t y x c, g.Inside T t y x c → buf'[g.offset t y x c]? = some (l.pixel tensor t y x c)
  behind : ∀ i, T * g.width * g.height * g.channels ≤ i → buf'[i]? = buf[i]?
  read : ∃ back, readTensor g T buf' = .ok back ∧ back.shape = Layout.tchw.shape g T ∧
    ∀ t y x c, g.Inside T t y x c → Layout.tchw.pixel back t y x c = l.pixel tensor t y x c

/-- the writer guesses the layout of the tensor right -/
def GuessedRight (g : Geometry) : Layout → Prop
  | .tchw => g.width ≠ g.channels
  | .thwc => ¬ GuessedChw g.height g.channels

instance (g : Geometry) : (l : Layout) → Decidable (GuessedRight g l)
  | .tchw => inferInstanceAs (Decidable (g.width ≠ g.channels))
  | .thwc => inferInstanceAs (Decidable (¬ GuessedChw g.height g.channels))

/-! ## Positions -/

theorem ravel_offset (g : Geometry) (T t y x c : ℕ) :
    Tensor.ravel [T, g.height, g.width, g.channels] [t, y, x, c] = g.offset t y x c := by
  simp only [Tensor.ravel, Geometry.offset, List.prod_cons, List.prod_nil]
  ring

theorem Geometry.Inside.inBounds {g : Geometry} {T t y x c : ℕ} (h : g.Inside T t y x c) :
    Tensor.InBounds [T, g.height, g.width, g.channels] [t, y, x, c] := by
  simp [h.frame, h.row, h.column, h.channel]

/-! ## The law -/

/-- copying [T, H, W, C] frames that are the tensor's pixels makes the round trip -/
theorem roundTrip_of_hwc {g : Geometry} {l : Layout} {T : ℕ} {tensor hwc : Tensor UInt8} {buf : List UInt8}
    (hwrite : (writeTensor g tensor).run buf = (.ok T, hwc.toList ++ buf.drop (T * g.frameBytes))) (hT : 1 ≤ T)
    (hshape : hwc.shape = [T, g.height, g.width, g.channels])
    (hpix : ∀ t y x c, hwc.get [t, y, x, c] = l.pixel tensor t y x c) :
    RoundTrip g l T tensor buf (hwc.toList ++ buf.drop (T * g.frameBytes)) := by
  have htotal : hwc.numel = T * g.frameBytes := by
    simp only [Tensor.numel, hshape, List.prod_cons, List.prod_nil, Geometry.frameBytes]
    ring
  have hlen : hwc.toList.length = T * g.frameBytes := by rw [Tensor.toList_length, htotal]
  have hstored : ∀ t y x c, g.Inside T t y x c → hwc.toList[g.offset t y x c]? = some (l.pixel tensor t y x c) := by
    intro t y x c hin
    have h := hwc.toList_getElem? (show Tensor.InBounds hwc.shape [t, y, x, c] from hshape ▸ hin.inBounds)
    rwa [hshape, ravel_offset, hpix] at h
  have hlt : ∀ t y x c, g.Inside T t y x c → g.offset t y x c < hwc.toList.length := by
    intro t y x c hin
    exact (List.getElem?_eq_some_iff.1 (hstored t y x c hin)).1
  refine ⟨hwrite, ?_, ?_, ?_⟩
  · intro t y x c hin
    rw [List.getElem?_append_left (hlt t y x c hin)]
    exact hstored t y x c hin
  · intro i hi
    have hi' : T * g.frameBytes ≤ i := by
      rw [Geometry.frameBytes, ← Nat.mul_assoc, ← Nat.mul_assoc]
      exact hi
    rw [List.getElem?_append_right (hlen.symm ▸ hi'), hlen, List.getElem?_drop]
    congr 1
    omega
  · have hroom : (T : ℤ).toNat * g.frameBytes ≤ (hwc.toList ++ buf.drop (T * g.frameBytes)).length := by
      rw [List.length_append, hlen, Int.toNat_natCast]
      omega
    have htake : (hwc.toList ++ buf.drop (T * g.frameBytes)).take (T * g.frameBytes) = hwc.toList := by
      rw [← hlen, List.take_left]
    obtain ⟨hbshape, hbget⟩ := permute_chw
      (x := Tensor.ofList [T, g.height, g.width, g.channels] hwc.toList 0) rfl
    refine ⟨_, ?_, hbshape, ?_⟩
    · rw [readTensor_ok (by omega) hroom, Int.toNat_natCast, htake]
    · intro t y x c hin
      rw [Layout.pixel, hbget, Tensor.ofList_get, ravel_offset, List.getD_eq_getElem?_getD, hstored t y x c hin]
      rfl

/-- a right guess passes the checks and a wrong one does not -/
theorem writable_iff {g : Geometry} {len T : ℕ} (l : Layout) (hT : 1 ≤ T) (hroom : T * g.frameBytes ≤ len)
    (hdiff : ¬ (g.width = g.height ∧ g.height = g.channels)) :
    Writable g len (l.shape g T) ↔ GuessedRight g l := by
  have hcopy : Copyable g len T g.height g.width g.channels := ⟨rfl, rfl, rfl, hroom, hT⟩
  cases l with
  | tchw =>
    simp only [Writable, Layout.shape, GuessedRight]
    split_ifs with hg
    · exact ⟨fun _ h => hg.2 h.symm, fun _ => hcopy⟩
    · have hwc : g.width = g.channels := by
        by_contra h
        exact hg ⟨g.channels_ok, Ne.symm h⟩
      refine ⟨fun h => absurd ⟨?_, ?_⟩ hdiff, fun h => absurd hwc h⟩
      · exact h.width.symm
      · exact h.height.symm
  | thwc =>
    simp only [Writable, Layout.shape, GuessedRight]
    split_ifs with hg
    · refine ⟨fun h => absurd ⟨?_, ?_⟩ hdiff, fun h => absurd hg h⟩
      · exact h.height
      · exact h.channels
    · exact ⟨fun _ => hg, fun _ => hcopy⟩

/-- on a right guess the tensor the writer copies is [T, H, W, C] with the same pixels -/
theorem toHwc_pixels {g : Geometry} {l : Layout} {T : ℕ} {tensor : Tensor UInt8} (hshape : tensor.shape = l.shape g T)
    (hguess : GuessedRight g l) :
    (toHwc tensor).shape = [T, g.height, g.width, g.channels] ∧
      ∀ t y x c, (toHwc tensor).get [t, y, x, c] = l.pixel tensor t y x c := by
  cases l with
  | tchw =>
    have hg : GuessedChw g.channels g.width := ⟨g.channels_ok, Ne.symm hguess⟩
    have hhwc : toHwc tensor = tensor.permute [0, 2, 3, 1] := by
      simp only [toHwc, hshape, Layout.shape, if_pos hg]
    rw [hhwc]
    exact permute_hwc hshape
  | thwc =>
    have hhwc : toHwc tensor = tensor := by
      simp only [toHwc, hshape, Layout.shape, if_neg (show ¬ GuessedChw g.height g.channels from hguess)]
    rw [hhwc]
    exact ⟨hshape, fun _ _ _ _ => rfl⟩

/-- **Round trip.** For every geometry, frame count and uint8 tensor in a documented layout that fits the buffer, except
where the two layouts have the same shape: writing and reading back works exactly when the writer's guess is right. A
write that raises, of any tensor, leaves the buffer as it was. -/
theorem roundTrip_iff (g : Geometry) (l : Layout) (T : ℕ) (tensor : Tensor UInt8) (buf : List UInt8) (hT : 1 ≤ T)
    (hshape : tensor.shape = l.shape g T) (hroom : T * g.width * g.height * g.channels ≤ buf.length)
    (hdiff : ¬ (g.width = g.height ∧ g.height = g.channels)) :
    ((∃ buf', RoundTrip g l T tensor buf buf') ↔ GuessedRight g l) ∧
      ∀ (tensor' : Tensor UInt8) e buf', (writeTensor g tensor').run buf = (.error e, buf') → buf' = buf := by
  have hroom' : T * g.frameBytes ≤ buf.length := by
    rw [Geometry.frameBytes, ← Nat.mul_assoc, ← Nat.mul_assoc]
    exact hroom
  have hwritable := writable_iff l hT hroom' hdiff
  rw [← hshape] at hwritable
  refine ⟨⟨?_, ?_⟩, ?_⟩
  · intro h
    rcases h with ⟨buf', hrt⟩
    by_contra hguess
    obtain ⟨e, h⟩ := writeTensor_error (mt hwritable.1 hguess)
    rw [hrt.returns] at h
    cases h
  · intro hguess
    obtain ⟨hs, hpix⟩ := toHwc_pixels hshape hguess
    have hdim : tensor.dim0 = T := by
      rw [Tensor.dim0, hshape]
      cases l <;> rfl
    have hrun := writeTensor_ok (hwritable.2 hguess)
    rw [hdim] at hrun
    exact ⟨_, roundTrip_of_hwc hrun hT hs hpix⟩
  · intro tensor' e buf' hrun
    by_cases hw : Writable g buf.length tensor'.shape
    · rw [writeTensor_ok hw] at hrun
      cases hrun
    · obtain ⟨e', h⟩ := writeTensor_error hw
      rw [h] at hrun
      exact (Prod.mk.inj hrun).2.symm

/-- one row of two RGB pixels makes the round trip -/
theorem roundTrip_row :
    ∃ buf', RoundTrip ⟨2, 1, 3, by decide, by decide, rgb_ok⟩ .tchw 1 ⟨[1, 3, 1, 2], fun _ => 7⟩
      (List.replicate 6 0) buf' :=
  (roundTrip_iff ⟨2, 1, 3, by decide, by decide, rgb_ok⟩ .tchw 1 ⟨[1, 3, 1, 2], fun _ => 7⟩ (List.replicate 6 0)
    (by decide) rfl (by decide) (by decide)).1.2 (by decide)

/-- RGB frames three pixels wide and two high -/
def narrowRgb : Geometry := ⟨3, 2, 3, by decide, by decide, rgb_ok⟩

/-- **A wrong guess.** One [T, C, H, W] frame three pixels wide is taken for [T, H, W, C] and refused. -/
theorem narrow_rgb_refused :
    Layout.tchw.shape narrowRgb 1 = [1, 3, 2, 3] ∧
      ¬ (narrowRgb.width = narrowRgb.height ∧ narrowRgb.height = narrowRgb.channels) ∧
      (∃ e, (writeTensor narrowRgb ⟨[1, 3, 2, 3], fun _ => 7⟩).run (List.replicate 18 0) =
        (.error e, List.replicate 18 0)) ∧
      ¬ ∃ buf', RoundTrip narrowRgb .tchw 1 ⟨[1, 3, 2, 3], fun _ => 7⟩ (List.replicate 18 0) buf' := by
  have hw : ¬ Writable narrowRgb (List.replicate 18 (0 : UInt8)).length [1, 3, 2, 3] := by
    intro h
    rw [Writable, if_neg (by decide)] at h
    exact absurd h.height (by decide)
  obtain ⟨e, he⟩ := writeTensor_error (x := ⟨[1, 3, 2, 3], fun _ => 7⟩) hw
  refine ⟨rfl, by decide, ⟨e, he⟩, ?_⟩
  intro h
  rcases h with ⟨buf', h⟩
  rw [h.returns] at he
  cases he

end Viduce.Shm
