/-
Shared-memory handles (`server/shm.py`): the frame geometry both constructors accept, the segments of the operating
system, the copy of frames into a mapped buffer and the view of a buffer as frames.

A segment is known to the system by its name; `Os` records which names are linked and whether this service created them.
A handle keeps the mapped bytes, which outlive the name. `SharedMemory` can raise for reasons of its own at each of its
calls (`ShmFaults`); one that raises leaves no segment. Only `create=True` is modelled, the way the daemon opens segments.

- `writeTensor_cases`: a write either copies the frames in [T, H, W, C] order or raises and leaves the buffer alone;
  `Writable` says which.
- `openSegment_cases`: opening a segment either links it as the service's own, or links nothing new.
-/
import Mathlib.Tactic
import Viduce.Core.Py
import Viduce.Core.Tensor

namespace Viduce.Shm

/-! ## Geometry -/

/-- width, height and channels as the constructors accept them -/
structure Geometry where
  width : ℕ
  height : ℕ
  channels : ℕ
  width_pos : 0 < width
  height_pos : 0 < height
  channels_ok : channels = 1 ∨ channels = 3 ∨ channels = 4
deriving DecidableEq

/-- `frame_bytes` -/
def Geometry.frameBytes (g : Geometry) : ℕ := g.width * g.height * g.channels

/-- the shape of a frame in the clips of the reader -/
def Geometry.frameShape (g : Geometry) : List ℕ := [g.channels, g.height, g.width]

theorem rgb_ok : (3 : ℕ) = 1 ∨ (3 : ℕ) = 3 ∨ (3 : ℕ) = 4 := Or.inr (Or.inl rfl)

theorem Geometry.channels_pos (g : Geometry) : 0 < g.channels := by
  rcases g.channels_ok with h | h | h <;> omega

theorem Geometry.frameBytes_pos (g : Geometry) : 0 < g.frameBytes :=
  Nat.mul_pos (Nat.mul_pos g.width_pos g.height_pos) g.channels_pos

/-- the checks at the head of both `__init__` -/
def Geometry.check (width height channels : ℤ) : Except PyErr Geometry :=
  if hd : width ≤ 0 ∨ height ≤ 0 then .error ⟨.valueError, s!"Invalid frame dimensions: {width}x{height}"⟩
  else if hc : channels = 1 ∨ channels = 3 ∨ channels = 4 then
    .ok ⟨width.toNat, height.toNat, channels.toNat, by omega, by omega, by omega⟩
  else .error ⟨.valueError, s!"Invalid channel count: {channels}"⟩

/-! ## Frames in a buffer -/

/-- `write_tensor` once the layout is settled: t frames of h by w pixels of c channels, in [T, H, W, C] order -/
def copyFrames (g : Geometry) (t h w c : ℕ) (hwcTensor : Tensor UInt8) : Py (List UInt8) ℕ :=
  if w ≠ g.width ∨ h ≠ g.height ∨ c ≠ g.channels then
    Py.raise ⟨.valueError, s!"Tensor dimensions ({w}x{h}, {c}ch) do not match configured SHM " ++
      s!"({g.width}x{g.height}, {g.channels}ch)"⟩
  else do
    let totalBytes := t * g.frameBytes
    let buf ← Py.get
    if buf.length < totalBytes then
      Py.raise ⟨.valueError, s!"Shared memory buffer size ({buf.length}) too small for payload ({totalBytes})"⟩
    else if totalBytes = 0 then
      -- `torch.frombuffer` on an empty view
      Py.raise ⟨.valueError, "both buffer length (0) and count (-1) must not be 0"⟩
    else do
      Py.modify fun buf => hwcTensor.toList ++ buf.drop totalBytes
      return t

/-- the test on which `write_tensor` takes a shape for [T, C, H, W] -/
def GuessedChw (d1 d3 : ℕ) : Prop := (d1 = 1 ∨ d1 = 3 ∨ d1 = 4) ∧ d1 ≠ d3

instance (d1 d3 : ℕ) : Decidable (GuessedChw d1 d3) := by unfold GuessedChw; infer_instance

/-- `write_tensor`, on a uint8 tensor in host memory, where its two conversions do nothing; the state is the mapped
buffer -/
def writeTensor (g : Geometry) (tensor : Tensor UInt8) : Py (List UInt8) ℕ :=
  match tensor.shape with
  | [d0, d1, d2, d3] =>
    if GuessedChw d1 d3 then copyFrames g d0 d2 d3 d1 (tensor.permute [0, 2, 3, 1])
    else copyFrames g d0 d1 d2 d3 tensor
  | shape => Py.raise ⟨.valueError, s!"Expected 4D tensor, got shape {shape}"⟩

/-- `read_tensor`: a view of the front of the buffer as [T, C, H, W] -/
def readTensor (g : Geometry) (numFrames : ℤ) (buf : List UInt8) : Except PyErr (Tensor UInt8) :=
  if numFrames ≤ 0 then .error ⟨.valueError, s!"num_frames must be positive, got {numFrames}"⟩
  else
    let totalBytes := numFrames.toNat * g.frameBytes
    if buf.length < totalBytes then
      .error ⟨.valueError, s!"Shared memory buffer size ({buf.length}) is smaller than required " ++
        s!"payload ({totalBytes})"⟩
    else
      let flatTensor := buf.take totalBytes
      let hwcTensor := Tensor.ofList [numFrames.toNat, g.height, g.width, g.channels] flatTensor 0
      .ok (hwcTensor.permute [0, 3, 1, 2])

/-! ## Segments -/

/-- who created a segment -/
inductive Owner where
  | service
  | other
deriving DecidableEq, Repr

/-- the linked names and their owners -/
abbrev Os := String → Option Owner

/-- the segments the service has created and not unlinked -/
def Os.own (os : Os) : Set String := {name | os name = some .service}

/-- `SharedMemory` puts a slash in front of the name it is given -/
def posixName (name : String) : String := "/" ++ name

/-- `shm_name.lstrip("/")` -/
def lstripSlash (shmName : String) : String := String.ofList (shmName.toList.dropWhile (· == '/'))

/-- the `SharedMemory` calls of a constructor -/
inductive ShmCall where
  | create
  | openOld
  | recreate
deriving DecidableEq, Repr

/-- which of them raise for reasons of the system -/
abbrev ShmFaults := ShmCall → Option PyErr

/-- `SharedMemory(name, create=True, size=size)`: the mapped bytes -/
def sharedMemoryCreate (name : String) (size : ℕ) (fault : Option PyErr) : Py Os (List UInt8) := do
  let os ← Py.get
  if size = 0 then Py.raise ⟨.valueError, "'size' must be a positive number different from zero"⟩
  else match fault with
    | some e => Py.raise e
    | none =>
      if (os (posixName name)).isSome then
        Py.raise ⟨.fileExistsError, s!"[Errno 17] File exists: '{posixName name}'"⟩
      else do
        Py.modify fun os => Function.update os (posixName name) (some .service)
        return List.replicate size 0

/-- `SharedMemory(name, create=False)` -/
def sharedMemoryOpen (name : String) (fault : Option PyErr) : Py Os Unit := do
  let os ← Py.get
  match fault with
  | some e => Py.raise e
  | none =>
    if (os (posixName name)).isSome then return ()
    else Py.raise ⟨.fileNotFoundError, s!"[Errno 2] No such file or directory: '{posixName name}'"⟩

/-- `SharedMemory.unlink()` -/
def sharedMemoryUnlink (name : String) : Py Os Unit := do
  let os ← Py.get
  if (os (posixName name)).isSome then Py.modify fun os => Function.update os (posixName name) none
  else Py.raise ⟨.fileNotFoundError, s!"[Errno 2] No such file or directory: '{posixName name}'"⟩

/-- an open `ShmReader` or `ShmWriter` -/
structure ShmHandle where
  shmName : String
  cleanName : String
  geometry : Geometry
  /-- the mapped bytes, `shm.buf` -/
  buf : List UInt8

/-- the `if create:` branch of both constructors -/
def openSegment (cleanName : String) (size : ℕ) (faults : ShmFaults) : Py Os (List UInt8) :=
  Py.tryExcept (sharedMemoryCreate cleanName size (faults .create)) fun e =>
    if e.kind = .fileExistsError then do
      -- existing stale segment: unlink and recreate
      sharedMemoryOpen cleanName (faults .openOld)
      sharedMemoryUnlink cleanName
      sharedMemoryCreate cleanName size (faults .recreate)
    else Py.raise e

/-- both constructors, with `create=True` -/
def ShmHandle.init (shmName : String) (width height channels : ℤ) (size : ℕ) (faults : ShmFaults) :
    Py Os ShmHandle := do
  let geometry ← Py.ofExcept (Geometry.check width height channels)
  let cleanName := lstripSlash shmName
  let buf ← openSegment cleanName size faults
  return ⟨shmName, cleanName, geometry, buf⟩

/-- `ShmReader(.., create=True)` -/
def ShmReader.init := ShmHandle.init

/-- `ShmWriter(.., create=True)` -/
def ShmWriter.init := ShmHandle.init

/-- `unlink` of both: a name that is gone is passed over -/
def ShmHandle.unlink (handle : ShmHandle) : Py Os Unit :=
  Py.tryExcept (sharedMemoryUnlink handle.cleanName) fun e =>
    if e.kind = .fileNotFoundError then return () else Py.raise e

/-! ## What a write does -/

/-- the checks of `copyFrames`, for a buffer of `len` bytes -/
structure Copyable (g : Geometry) (len t h w c : ℕ) : Prop where
  width : w = g.width
  height : h = g.height
  channels : c = g.channels
  room : t * g.frameBytes ≤ len
  frames : 0 < t

theorem copyFrames_ok {g : Geometry} {t h w c : ℕ} {x : Tensor UInt8} {buf : List UInt8}
    (hc : Copyable g buf.length t h w c) :
    (copyFrames g t h w c x).run buf = (.ok t, x.toList ++ buf.drop (t * g.frameBytes)) := by
  have hdims : ¬ (w ≠ g.width ∨ h ≠ g.height ∨ c ≠ g.channels) := by
    simp [hc.width, hc.height, hc.channels]
  have hpos : t * g.frameBytes ≠ 0 := (Nat.mul_pos hc.frames g.frameBytes_pos).ne'
  simp only [copyFrames, if_neg hdims, Py.run_bind_get, if_neg (Nat.not_lt.2 hc.room), if_neg hpos]
  rfl

theorem copyFrames_error {g : Geometry} {t h w c : ℕ} {x : Tensor UInt8} {buf : List UInt8}
    (hc : ¬ Copyable g buf.length t h w c) : ∃ e, (copyFrames g t h w c x).run buf = (.error e, buf) := by
  unfold copyFrames
  split_ifs with hdims
  · exact ⟨_, rfl⟩
  · simp only [not_or, not_not] at hdims
    simp only [Py.run_bind_get]
    split_ifs with hroom hzero
    · exact ⟨_, rfl⟩
    · exact ⟨_, rfl⟩
    · refine absurd ⟨hdims.1, hdims.2.1, hdims.2.2, Nat.not_lt.1 hroom, ?_⟩ hc
      exact Nat.pos_of_ne_zero fun h0 => hzero (by rw [h0, Nat.zero_mul])

/-- the checks of `write_tensor` on a shape, for a buffer of `len` bytes -/
def Writable (g : Geometry) (len : ℕ) (shape : List ℕ) : Prop :=
  match shape with
  | [d0, d1, d2, d3] => if GuessedChw d1 d3 then Copyable g len d0 d2 d3 d1 else Copyable g len d0 d1 d2 d3
  | _ => False

/-- the tensor as [T, H, W, C], by the writer's guess -/
def toHwc (tensor : Tensor UInt8) : Tensor UInt8 :=
  match tensor.shape with
  | [_, d1, _, d3] => if GuessedChw d1 d3 then tensor.permute [0, 2, 3, 1] else tensor
  | _ => tensor

/-- a write whose checks pass copies the frames over the front of the buffer -/
theorem writeTensor_ok {g : Geometry} {x : Tensor UInt8} {buf : List UInt8} (h : Writable g buf.length x.shape) :
    (writeTensor g x).run buf = (.ok x.dim0, (toHwc x).toList ++ buf.drop (x.dim0 * g.frameBytes)) := by
  unfold writeTensor toHwc Tensor.dim0
  unfold Writable at h
  split at h
  · rename_i d0 d1 d2 d3 hshape
    rw [hshape]
    split_ifs at h ⊢
    · exact copyFrames_ok h
    · exact copyFrames_ok h
  · exact h.elim

/-- **A write that raises changes nothing.** If the checks fail the write raises, and the buffer is as it was. -/
theorem writeTensor_error {g : Geometry} {x : Tensor UInt8} {buf : List UInt8} (h : ¬ Writable g buf.length x.shape) :
    ∃ e, (writeTensor g x).run buf = (.error e, buf) := by
  unfold writeTensor
  unfold Writable at h
  split at h
  · split_ifs at h ⊢
    · exact copyFrames_error h
    · exact copyFrames_error h
  · exact ⟨_, rfl⟩

/-! ## What a read does -/

theorem permute_hwc {x : Tensor UInt8} {t c h w : ℕ} (hx : x.shape = [t, c, h, w]) :
    (x.permute [0, 2, 3, 1]).shape = [t, h, w, c] ∧
      ∀ a b d e, (x.permute [0, 2, 3, 1]).get [a, b, d, e] = x.get [a, e, b, d] := by
  refine ⟨by simp [Tensor.permute, hx], ?_⟩
  intro a b d e
  simp only [Tensor.permute, hx]
  rfl

theorem permute_chw {x : Tensor UInt8} {t c h w : ℕ} (hx : x.shape = [t, h, w, c]) :
    (x.permute [0, 3, 1, 2]).shape = [t, c, h, w] ∧
      ∀ a b d e, (x.permute [0, 3, 1, 2]).get [a, b, d, e] = x.get [a, d, e, b] := by
  refine ⟨by simp [Tensor.permute, hx], ?_⟩
  intro a b d e
  simp only [Tensor.permute, hx]
  rfl

/-- a positive frame count with room for it in the buffer -/
theorem readTensor_ok {g : Geometry} {n : ℤ} {buf : List UInt8} (hn : 0 < n)
    (hroom : n.toNat * g.frameBytes ≤ buf.length) :
    readTensor g n buf = .ok ((Tensor.ofList [n.toNat, g.height, g.width, g.channels]
      (buf.take (n.toNat * g.frameBytes)) 0).permute [0, 3, 1, 2]) := by
  simp only [readTensor, if_neg (Int.not_le.2 hn), if_neg (Nat.not_lt.2 hroom)]

theorem readTensor_error {g : Geometry} {n : ℤ} {buf : List UInt8}
    (h : ¬ (0 < n ∧ n.toNat * g.frameBytes ≤ buf.length)) : ∃ e, readTensor g n buf = .error e := by
  by_cases hn : n ≤ 0
  · exact ⟨_, by rw [readTensor, if_pos hn]⟩
  · have hroom : buf.length < n.toNat * g.frameBytes := by
      by_contra hlt
      exact h ⟨by omega, by omega⟩
    simp only [readTensor, if_neg hn, if_pos hroom]
    exact ⟨_, rfl⟩

/-! ## What opening and unlinking do -/

/-- opening succeeds: at once if the name is free, over the stale segment if it is linked -/
def opens (linked : Bool) (faults : ShmFaults) : Bool :=
  if linked then ((faults .create).all fun e => e.kind = .fileExistsError) && (faults .openOld).isNone &&
    (faults .recreate).isNone
  else (faults .create).isNone

/-- the name a handle's segment is linked under -/
def segmentName (shmName : String) : String := posixName (lstripSlash shmName)

theorem create_fault {name : String} {size : ℕ} (hsize : 0 < size) (e : PyErr) (os : Os) :
    (sharedMemoryCreate name size (some e)).run os = (.error e, os) := by
  simp only [sharedMemoryCreate, Py.run_bind_get, if_neg hsize.ne']
  rfl

theorem create_linked {name : String} {size : ℕ} (hsize : 0 < size) {os : Os} (h : (os (posixName name)).isSome) :
    (sharedMemoryCreate name size none).run os =
      (.error ⟨.fileExistsError, s!"[Errno 17] File exists: '{posixName name}'"⟩, os) := by
  simp only [sharedMemoryCreate, Py.run_bind_get, if_neg hsize.ne', if_pos h]
  rfl

theorem create_free {name : String} {size : ℕ} (hsize : 0 < size) {os : Os} (h : os (posixName name) = none) :
    (sharedMemoryCreate name size none).run os =
      (.ok (List.replicate size 0), Function.update os (posixName name) (some .service)) := by
  have hn : ¬ (os (posixName name)).isSome := by simp [h]
  simp only [sharedMemoryCreate, Py.run_bind_get, if_neg hsize.ne', if_neg hn, Py.run_bind_modify]
  rfl

theorem unlink_linked {name : String} {os : Os} (h : (os (posixName name)).isSome) :
    (sharedMemoryUnlink name).run os = (.ok (), Function.update os (posixName name) none) := by
  simp only [sharedMemoryUnlink, Py.run_bind_get, if_pos h]
  rfl

/-- a handle's `unlink` frees its name and never raises -/
theorem ShmHandle.unlink_run (handle : ShmHandle) (os : Os) :
    handle.unlink.run os = (.ok (), Function.update os (posixName handle.cleanName) none) := by
  rw [ShmHandle.unlink, Py.run_tryExcept]
  by_cases h : (os (posixName handle.cleanName)).isSome
  · rw [unlink_linked h]
  · have hnone : os (posixName handle.cleanName) = none := by simpa using h
    simp only [sharedMemoryUnlink, Py.run_bind_get, if_neg h, Py.run_raise, if_true]
    rw [Py.run_pure, ← hnone, Function.update_eq_self]

/-- the except branch of the constructors: it succeeds over a linked segment unless one of its two calls fails -/
theorem recreate_cases {name : String} {size : ℕ} (hsize : 0 < size) (faults : ShmFaults) (os : Os) :
    let x : Py Os (List UInt8) := do
      sharedMemoryOpen name (faults .openOld)
      sharedMemoryUnlink name
      sharedMemoryCreate name size (faults .recreate)
    let succeeds := (os (posixName name)).isSome = true ∧ faults .openOld = none ∧ faults .recreate = none
    (succeeds ∧ x.run os = (.ok (List.replicate size 0), Function.update os (posixName name) (some .service))) ∨
    (¬ succeeds ∧ ∃ e os', x.run os = (.error e, os') ∧
      (os' = os ∨ os' = Function.update os (posixName name) none) ∧
      ((∀ call e, faults call = some e → e.kind ≠ .valueError) → e.kind ≠ .valueError)) := by
  intro x succeeds
  cases ho : faults .openOld with
  | some e =>
    have hopen : (sharedMemoryOpen name (faults .openOld)).run os = (.error e, os) := by rw [ho]; rfl
    refine Or.inr ⟨fun h => ?_, e, os, Py.run_bind_error hopen _, Or.inl rfl, fun h => h _ e ho⟩
    exact absurd (ho.symm.trans h.2.1) (by simp)
  | none =>
    by_cases hl : (os (posixName name)).isSome = true
    · have hopen : (sharedMemoryOpen name (faults .openOld)).run os = (.ok (), os) := by
        rw [ho]
        simp only [sharedMemoryOpen, Py.run_bind_get, if_pos hl]
        rfl
      have hx : x.run os = _ := (Py.run_bind_ok hopen _).trans (Py.run_bind_ok (unlink_linked hl) _)
      cases hr : faults .recreate with
      | some e =>
        rw [hr, create_fault hsize] at hx
        refine Or.inr ⟨fun h => ?_, e, _, hx, Or.inr rfl, fun h => h _ e hr⟩
        exact absurd (hr.symm.trans h.2.2) (by simp)
      | none =>
        rw [hr, create_free hsize (Function.update_self ..), Function.update_idem] at hx
        exact Or.inl ⟨⟨hl, ho, hr⟩, hx⟩
    · have hopen : (sharedMemoryOpen name (faults .openOld)).run os =
          (.error ⟨.fileNotFoundError, s!"[Errno 2] No such file or directory: '{posixName name}'"⟩, os) := by
        rw [ho]
        simp only [sharedMemoryOpen, Py.run_bind_get, if_neg hl]
        rfl
      exact Or.inr ⟨fun h => hl h.1, _, os, Py.run_bind_error hopen _, Or.inl rfl,
        fun _ => ExcKind.noConfusion⟩

/-- **Opening a segment.** It succeeds exactly when `opens` says so, and then the name is the service's; when it raises,
no name has been linked. -/
theorem openSegment_cases {name : String} {size : ℕ} (hsize : 0 < size) (faults : ShmFaults) (os : Os) :
    (opens (os (posixName name)).isSome faults = true ∧ (openSegment name size faults).run os =
      (.ok (List.replicate size 0), Function.update os (posixName name) (some .service))) ∨
    (opens (os (posixName name)).isSome faults = false ∧ ∃ e os', (openSegment name size faults).run os = (.error e, os') ∧
      (os' = os ∨ os' = Function.update os (posixName name) none) ∧
      ((∀ call e, faults call = some e → e.kind ≠ .valueError) → e.kind ≠ .valueError)) := by
  rw [openSegment, Py.run_tryExcept]
  cases hc : faults .create with
  | some e =>
    rw [create_fault hsize]
    by_cases hk : e.kind = .fileExistsError
    · simp only [if_pos hk]
      rcases recreate_cases hsize faults os with ⟨⟨hl, ho, hr⟩, hrun⟩ | ⟨hfail, e', os', hrun, hrest⟩
      · exact Or.inl ⟨by simp [opens, hl, hc, hk, ho, hr], hrun⟩
      · refine Or.inr ⟨?_, e', os', hrun, hrest⟩
        rw [← Bool.not_eq_true]
        simpa [opens, hc, hk] using hfail
    · simp only [if_neg hk, Py.run_raise]
      refine Or.inr ⟨?_, e, os, rfl, Or.inl rfl, fun h => h _ e hc⟩
      unfold opens
      split_ifs <;> simp [hc, hk]
  | none =>
    by_cases hl : (os (posixName name)).isSome
    · rw [create_linked hsize hl]
      simp only [if_true]
      rcases recreate_cases hsize faults os with ⟨⟨-, ho, hr⟩, hrun⟩ | ⟨hfail, e', os', hrun, hrest⟩
      · exact Or.inl ⟨by simp [opens, hl, hc, ho, hr], hrun⟩
      · refine Or.inr ⟨?_, e', os', hrun, hrest⟩
        rw [← Bool.not_eq_true]
        simpa [opens, hc, hl] using hfail
    · have hnone : os (posixName name) = none := by simpa using hl
      rw [create_free hsize hnone]
      refine Or.inl ⟨?_, rfl⟩
      simp [opens, hl, hc]

/-- **Constructing a handle** with an accepted geometry: it succeeds exactly when its segment opens. -/
theorem ShmHandle.init_cases {width height channels : ℤ} {g : Geometry}
    (hg : Geometry.check width height channels = .ok g) (shmName : String) {size : ℕ} (hsize : 0 < size)
    (faults : ShmFaults) (os : Os) :
    (opens (os (segmentName shmName)).isSome faults = true ∧
      (ShmHandle.init shmName width height channels size faults).run os =
        (.ok ⟨shmName, lstripSlash shmName, g, List.replicate size 0⟩,
          Function.update os (segmentName shmName) (some .service))) ∨
    (opens (os (segmentName shmName)).isSome faults = false ∧
      ∃ e os', (ShmHandle.init shmName width height channels size faults).run os = (.error e, os') ∧
        (os' = os ∨ os' = Function.update os (segmentName shmName) none) ∧
        ((∀ call e, faults call = some e → e.kind ≠ .valueError) → e.kind ≠ .valueError)) := by
  rw [ShmHandle.init, hg, Py.run_bind_ofExcept]
  rcases @openSegment_cases (lstripSlash shmName) size hsize faults os with ⟨ho, hrun⟩ | ⟨ho, e, os', hrun, hrest⟩
  · exact Or.inl ⟨ho, Py.run_bind_ok hrun _⟩
  · exact Or.inr ⟨ho, e, os', Py.run_bind_error hrun _, hrest⟩

end Viduce.Shm
