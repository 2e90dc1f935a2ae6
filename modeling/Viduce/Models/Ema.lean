/-
The moving averages of the weights (`prepare_ema`, `update_ema`, `save_ema` of `Precond`, `models/precond.py`). For each
decay there is a copy of the transformer, which each update mixes with the weights of the training; the copies are saved to a
directory for each decay and taken up from there. Tensors are elements of a module over the rationals: exact arithmetic.

- `updateModule_ok`: one update of one copy, if no key is missing.
- `step_tracks`: updates, saves and restarts do to the copies what they do to logs of the updates.
- `ema_run`: whatever their order, each copy is the average over the updates in its log.
-/
import Mathlib.Tactic
import Viduce.Core.Py
import Viduce.Core.Run
import Viduce.Core.Flow

namespace Viduce.Ema

open Viduce.Flow

/-! ## Model -/

/-- a tensor by the name it has in the transformer -/
abbrev Named (V : Type) : Type := List (String × V)

structure Transformer (V : Type) where
  namedParameters : Named V
  namedBuffers : Named V

abbrev StateDict (V : Type) : Type := String → Option V

/-- the fields of `Precond` that are read here; each of `_ema_states` is a dictionary with the transformer alone -/
structure Precond (V : Type) where
  transformer : Transformer V
  emaDecays : List ℚ
  emaStates : List (Transformer V)

/-- what is in the directory `ema-{decay}/transformer` of a directory; two paths of one directory are one `Dir` -/
abbrev Disk (Dir V : Type) : Type := Dir → ℚ → Option (Transformer V)

variable {V Dir : Type}

/-- `prepare_ema`: a copy that cannot be loaded, or `save_dir=None`, is one of the transformer -/
def prepareEma (disk : Disk Dir V) (emaDecays : List (Option ℚ)) (saveDir : Option Dir) (p : Precond V) : Precond V :=
  { p with
    emaDecays := emaDecays.reduceOption
    emaStates := emaDecays.reduceOption.map fun decay => (saveDir.bind fun dir => disk dir decay).getD p.transformer }

/-- the key of a name -/
def key (name : String) : String := "transformer." ++ name

/-- a loop over names changes the tensors in place, so a missing key leaves those in front of it changed -/
def mixEach (mix : V → V → V) (stateDict : StateDict V) : Named V → Except PyErr Unit × Named V
  | [] => (.ok (), [])
  | (name, v) :: rest =>
    match stateDict (key name) with
    | none => (.error ⟨.other, key name⟩, (name, v) :: rest)
    | some src => ((mixEach mix stateDict rest).1, (name, mix v src) :: (mixEach mix stateDict rest).2)

def updateEach (mix : V → V → V) (stateDict : StateDict V) : Py (Named V) Unit := mixEach mix stateDict

section Update

variable [AddCommGroup V] [Module ℚ V]

/-- the parameters of one copy, then its buffers -/
def updateModule (stateDict : StateDict V) (decay : ℚ) : Py (Transformer V) Unit := do
  Py.zoom Transformer.namedParameters (fun l m => { m with namedParameters := l })
    (updateEach (fun v src => decay • v + (1 - decay) • src) stateDict)
  Py.zoom Transformer.namedBuffers (fun l m => { m with namedBuffers := l }) (updateEach (fun _ src => src) stateDict)

/-- the copies in turn, up to the first one that raises -/
def mixStates (stateDict : StateDict V) : List ℚ → List (Transformer V) → Except PyErr Unit × List (Transformer V)
  | decay :: decays, m :: states =>
    match (updateModule stateDict decay).run m with
    | (.error e, m) => (.error e, m :: states)
    | (.ok (), m) => ((mixStates stateDict decays states).1, m :: (mixStates stateDict decays states).2)
  | _, states => (.ok (), states)

/-- `for decay, ema_state in zip(self._ema_decays, self._ema_states)` -/
def updateStates (stateDict : StateDict V) (decays : List ℚ) : Py (List (Transformer V)) Unit := mixStates stateDict decays

def updateEma (stateDict : StateDict V) : Py (Precond V) Unit := do
  let p ← Py.get
  if p.emaStates.isEmpty then pure ()
  else Py.zoom Precond.emaStates (fun states p => { p with emaStates := states }) (updateStates stateDict p.emaDecays)

end Update

/-- `save_ema`; of the same decay, the last copy is kept -/
def saveEma [DecidableEq Dir] (saveDir : Dir) (p : Precond V) (disk : Disk Dir V) : Disk Dir V :=
  (p.emaDecays.zip p.emaStates).foldl (fun disk e dir decay => if dir = saveDir ∧ decay = e.1 then some e.2 else disk dir decay)
    disk

/-! ## Updates, saves and restarts -/

/-- what happens to the copies; a restart is `prepare_ema` of a new process, with the transformer it has -/
inductive Op (Dir V : Type) where
  | update (stateDict : StateDict V)
  | save (saveDir : Dir)
  | restart (transformer : Transformer V) (saveDir : Option Dir)

structure World (Dir V : Type) where
  precond : Precond V
  disk : Disk Dir V

def World.step [DecidableEq Dir] [AddCommGroup V] [Module ℚ V] (emaDecays : List (Option ℚ)) (s : World Dir V) :
    Op Dir V → World Dir V
  | .update stateDict => { s with precond := ((updateEma stateDict).run s.precond).2 }
  | .save saveDir => { s with disk := saveEma saveDir s.precond s.disk }
  | .restart transformer saveDir => { s with precond := prepareEma s.disk emaDecays saveDir ⟨transformer, [], []⟩ }

/-- what a copy is made of: the one it began as, and the updates since -/
structure Log (V : Type) where
  start : Transformer V
  updates : List (StateDict V)

/-- the log of one copy, and those that were saved, by directory -/
structure Logs (Dir V : Type) where
  current : Log V
  saved : Dir → Option (Log V)

def Logs.step [DecidableEq Dir] (s : Logs Dir V) : Op Dir V → Logs Dir V
  | .update stateDict => { s with current := ⟨s.current.start, s.current.updates ++ [stateDict]⟩ }
  | .save saveDir => { s with saved := fun dir => if dir = saveDir then some s.current else s.saved dir }
  | .restart transformer saveDir => { s with current := (saveDir.bind s.saved).getD ⟨transformer, []⟩ }

section Value

variable [AddCommGroup V] [Module ℚ V]

def source (name : String) (stateDict : StateDict V) : V := (stateDict (key name)).getD 0

/-- the parameters are averages over the log, the buffers are those of the last update -/
def Log.value (decay : ℚ) (l : Log V) : Transformer V where
  namedParameters := l.start.namedParameters.map fun e => (e.1, movingAverage decay e.2 (l.updates.map (source e.1)))
  namedBuffers := l.start.namedBuffers.map fun e => (e.1, ((l.updates.map (source e.1)).getLast?).getD e.2)

end Value

/-! ## One update -/

/-- no name is without a key -/
def Complete (stateDict : StateDict V) (names : List String) : Prop := ∀ name ∈ names, (stateDict (key name)).isSome

/-- the names of its parameters and of its buffers -/
def Transformer.names (m : Transformer V) : List String := m.namedParameters.map Prod.fst ++ m.namedBuffers.map Prod.fst

section Steps

variable [AddCommGroup V] [Module ℚ V]

omit [Module ℚ V] in
theorem updateEach_ok (mix : V → V → V) {stateDict : StateDict V} {l : Named V} (h : Complete stateDict (l.map Prod.fst)) :
    (updateEach mix stateDict).run l = (.ok (), l.map fun e => (e.1, mix e.2 (source e.1 stateDict))) := by
  change mixEach mix stateDict l = _
  induction l with
  | nil => rfl
  | cons e l ih =>
    obtain ⟨name, v⟩ := e
    obtain ⟨src, hsrc⟩ := Option.isSome_iff_exists.1 (h name List.mem_cons_self)
    have hrest := ih fun name' hname => h name' (List.mem_cons_of_mem name hname)
    have hsource : source name stateDict = src := by rw [source, hsrc, Option.getD_some]
    rw [mixEach, hsrc, hrest, List.map_cons, hsource]

theorem updateModule_ok {stateDict : StateDict V} {m : Transformer V} (h : Complete stateDict m.names) (decay : ℚ) :
    (updateModule stateDict decay).run m =
      (.ok (), ⟨m.namedParameters.map fun e => (e.1, decay • e.2 + (1 - decay) • source e.1 stateDict),
        m.namedBuffers.map fun e => (e.1, source e.1 stateDict)⟩) := by
  have hparameters := updateEach_ok (fun v src => decay • v + (1 - decay) • src) (l := m.namedParameters)
    fun name hname => h name (List.mem_append_left _ hname)
  have hbuffers := updateEach_ok (fun _ src => src) (l := m.namedBuffers)
    fun name hname => h name (List.mem_append_right _ hname)
  have hfirst : (Py.zoom Transformer.namedParameters (fun l m => { m with namedParameters := l })
      (updateEach (fun v src => decay • v + (1 - decay) • src) stateDict)).run m =
        (.ok (), ⟨m.namedParameters.map fun e => (e.1, decay • e.2 + (1 - decay) • source e.1 stateDict), m.namedBuffers⟩) := by
    rw [Py.run_zoom, hparameters]
  rw [updateModule, Py.run_bind_ok hfirst, Py.run_zoom, hbuffers]

theorem names_value (decay : ℚ) (l : Log V) : (l.value decay).names = l.start.names := by
  simp [Log.value, Transformer.names, Function.comp_def]

/-- an update of a copy is one more entry of its log -/
theorem updateModule_value {stateDict : StateDict V} {l : Log V} (h : Complete stateDict l.start.names) (decay : ℚ) :
    (updateModule stateDict decay).run (l.value decay) = (.ok (), Log.value decay ⟨l.start, l.updates ++ [stateDict]⟩) := by
  rw [← names_value decay l] at h
  rw [updateModule_ok h]
  simp [Log.value, movingAverage_snoc, Function.comp_def]

theorem updateStates_ok {stateDict : StateDict V} {decays : List ℚ} {f g : ℚ → Transformer V}
    (h : ∀ decay ∈ decays, (updateModule stateDict decay).run (f decay) = (.ok (), g decay)) :
    (updateStates stateDict decays).run (decays.map f) = (.ok (), decays.map g) := by
  change mixStates stateDict decays (decays.map f) = _
  induction decays with
  | nil => rfl
  | cons decay decays ih =>
    have hrest := ih fun d hd => h d (List.mem_cons_of_mem decay hd)
    rw [List.map_cons, mixStates, h decay List.mem_cons_self, hrest, List.map_cons]

theorem updateEma_ok {stateDict : StateDict V} {p : Precond V} {f g : ℚ → Transformer V} (hp : p.emaStates = p.emaDecays.map f)
    (h : ∀ decay ∈ p.emaDecays, (updateModule stateDict decay).run (f decay) = (.ok (), g decay)) :
    (updateEma stateDict).run p = (.ok (), { p with emaStates := p.emaDecays.map g }) := by
  rw [updateEma, Py.run_bind_get]
  by_cases hnone : p.emaDecays = []
  · have hstates : p.emaStates = [] := by rw [hp, hnone, List.map_nil]
    rw [if_pos (List.isEmpty_iff.2 hstates), Py.run_pure, hnone, List.map_nil, ← hstates, ← hnone]
  · have hsome : ¬ p.emaStates.isEmpty := by simpa [hp] using hnone
    rw [if_neg hsome, Py.run_zoom, hp, updateStates_ok h]

end Steps

/-- what was saved is found again -/
theorem saveEma_apply [DecidableEq Dir] {saveDir : Dir} {p : Precond V} {f : ℚ → Transformer V}
    (hp : p.emaStates = p.emaDecays.map f) (disk : Disk Dir V) (dir : Dir) (decay : ℚ) :
    saveEma saveDir p disk dir decay = if dir = saveDir ∧ decay ∈ p.emaDecays then some (f decay) else disk dir decay := by
  rw [saveEma, hp]
  generalize p.emaDecays = decays
  induction decays using List.reverseRecOn with
  | nil => simp
  | append_singleton decays d ih =>
    rw [List.map_append, List.map_singleton, List.zip_append (List.length_map _).symm, List.foldl_append]
    simp only [List.zip_cons_cons, List.zip_nil_left, List.foldl_cons, List.foldl_nil, List.mem_append, List.mem_singleton]
    by_cases hlast : dir = saveDir ∧ decay = d
    · rw [if_pos hlast, if_pos ⟨hlast.1, .inr hlast.2⟩, hlast.2]
    · rw [if_neg hlast, ih]
      refine if_congr (and_congr_right fun hdir => ⟨.inl, fun hmem => hmem.resolve_right fun hd => hlast ⟨hdir, hd⟩⟩) rfl rfl

/-! ## Runs -/

/-- the state of a training has all the names, and each process a transformer with these names -/
def Op.Fits (names : List String) : Op Dir V → Prop
  | .update stateDict => Complete stateDict names
  | .save _ => True
  | .restart transformer _ => transformer.names = names

section Runs

variable [DecidableEq Dir] [AddCommGroup V] [Module ℚ V] {names : List String} {emaDecays : List (Option ℚ)}
  {s : World Dir V} {t : ℚ → Logs Dir V}

/-- what is on the disk are the saved logs -/
structure Kept (names : List String) (decays : List ℚ) (disk : Disk Dir V) (t : ℚ → Logs Dir V) : Prop where
  disk : ∀ dir, ∀ decay ∈ decays, disk dir decay = ((t decay).saved dir).map (Log.value decay)
  saved : ∀ decay ∈ decays, ∀ dir l, (t decay).saved dir = some l → l.start.names = names

/-- and the copies are the current ones -/
structure Tracks (names : List String) (emaDecays : List (Option ℚ)) (s : World Dir V) (t : ℚ → Logs Dir V) : Prop
    extends Kept names emaDecays.reduceOption s.disk t where
  decays : s.precond.emaDecays = emaDecays.reduceOption
  states : s.precond.emaStates = s.precond.emaDecays.map fun decay => (t decay).current.value decay
  current : ∀ decay ∈ emaDecays.reduceOption, (t decay).current.start.names = names

theorem value_nil (decay : ℚ) (m : Transformer V) : Log.value decay ⟨m, []⟩ = m := by
  simp [Log.value]

/-- a new process finds its copies again, or begins with its transformer -/
theorem restart_tracks (h : Kept names emaDecays.reduceOption s.disk t) {transformer : Transformer V}
    (hnames : transformer.names = names) (saveDir : Option Dir) :
    Tracks names emaDecays (s.step emaDecays (.restart transformer saveDir)) fun decay =>
      (t decay).step (.restart transformer saveDir) where
  disk := h.disk
  saved := h.saved
  decays := rfl
  states := by
    refine List.map_congr_left fun decay hdecay => ?_
    cases saveDir with
    | none => exact (value_nil decay transformer).symm
    | some dir =>
      change (s.disk dir decay).getD transformer = Log.value decay (((t decay).saved dir).getD ⟨transformer, []⟩)
      rw [h.disk dir decay hdecay]
      cases (t decay).saved dir with
      | none => exact (value_nil decay transformer).symm
      | some l => rfl
  current := by
    intro decay hdecay
    change (((saveDir.bind (t decay).saved).getD ⟨transformer, []⟩).start).names = names
    cases hsaved : saveDir.bind (t decay).saved with
    | none => exact hnames
    | some l =>
      obtain ⟨dir, -, hdir⟩ := Option.bind_eq_some_iff.1 hsaved
      exact h.saved decay hdecay dir l hdir

theorem update_run (h : Tracks names emaDecays s t) {stateDict : StateDict V} (hdict : Complete stateDict names) :
    (updateEma stateDict).run s.precond = (.ok (), { s.precond with
      emaStates := s.precond.emaDecays.map fun decay => ((t decay).step (.update stateDict)).current.value decay }) := by
  refine updateEma_ok h.states fun decay hdecay => updateModule_value ?_ decay
  rw [h.current decay (h.decays ▸ hdecay)]
  exact hdict

/-- an update does not raise -/
def Accepts (s : World Dir V) (o : Op Dir V) : Prop :=
  ∀ stateDict, o = .update stateDict → ((updateEma stateDict).run s.precond).1 = .ok ()

/-- **A step.** What happens to the copies happens to their logs. -/
theorem step_tracks (h : Tracks names emaDecays s t) {o : Op Dir V} (ho : o.Fits names) :
    Tracks names emaDecays (s.step emaDecays o) fun decay => (t decay).step o := by
  cases o with
  | update stateDict =>
    rw [World.step, update_run h ho]
    exact ⟨⟨h.disk, h.saved⟩, h.decays, rfl, h.current⟩
  | save saveDir =>
    refine ⟨⟨fun dir decay hdecay => ?_, fun decay hdecay dir l hl => ?_⟩, h.decays, h.states, h.current⟩
    · change saveEma saveDir s.precond s.disk dir decay =
        (if dir = saveDir then some (t decay).current else (t decay).saved dir).map (Log.value decay)
      rw [saveEma_apply h.states, h.decays]
      by_cases hdir : dir = saveDir
      · rw [if_pos ⟨hdir, hdecay⟩, if_pos hdir, Option.map_some]
      · rw [if_neg (not_and_of_not_left _ hdir), if_neg hdir, h.disk dir decay hdecay]
    · change (if dir = saveDir then some (t decay).current else (t decay).saved dir) = some l at hl
      split_ifs at hl with hdir
      · rw [← Option.some.inj hl]
        exact h.current decay hdecay
      · exact h.saved decay hdecay dir l hl
  | restart transformer saveDir => exact restart_tracks h.toKept ho saveDir

/-- a run, and that none of its updates raises -/
theorem run_tracks (h : Tracks names emaDecays s t) {ops : List (Op Dir V)} (hops : ∀ o ∈ ops, o.Fits names) :
    Tracks names emaDecays (Run.run (World.step emaDecays) s ops) (fun decay => Run.run Logs.step (t decay) ops) ∧
      Run.Along (World.step emaDecays) Accepts s ops := by
  induction ops generalizing s t with
  | nil => exact ⟨h, Run.along_nil _ _ _⟩
  | cons o ops ih =>
    have ho := hops o List.mem_cons_self
    obtain ⟨htracks, halong⟩ := ih (step_tracks h ho) fun o' ho' => hops o' (List.mem_cons_of_mem o ho')
    refine ⟨htracks, Run.along_cons.2 ⟨?_, halong⟩⟩
    rintro stateDict rfl
    exact congrArg Prod.fst (update_run h ho)

/-- the logs of a process at its start -/
def Logs.ofDisk (disk : Disk Dir V) (transformer : Transformer V) (saveDir : Option Dir) (decay : ℚ) : Logs Dir V :=
  Logs.step ⟨⟨transformer, []⟩, fun dir => (disk dir decay).map fun m => ⟨m, []⟩⟩ (.restart transformer saveDir)

/-- **The averages.** From a start on any disk, in any order of updates, saves and restarts, no update raises, and each copy
is the average, with its own decay, over the updates since its log began; a restart goes back to the log that was last saved
in the directory it reads. A decay that is given twice is no exception. -/
theorem ema_run {disk : Disk Dir V} (hdisk : ∀ dir decay m, disk dir decay = some m → m.names = names)
    {transformer : Transformer V} (hnames : transformer.names = names) (emaDecays : List (Option ℚ)) (saveDir : Option Dir)
    {ops : List (Op Dir V)}
    (hops : ∀ o ∈ ops, o.Fits names) :
    (Run.run (World.step emaDecays) ⟨prepareEma disk emaDecays saveDir ⟨transformer, [], []⟩, disk⟩ ops).precond.emaStates =
        emaDecays.reduceOption.map (fun decay =>
          (Run.run Logs.step (Logs.ofDisk disk transformer saveDir decay) ops).current.value decay) ∧
      Run.Along (World.step emaDecays) Accepts ⟨prepareEma disk emaDecays saveDir ⟨transformer, [], []⟩, disk⟩ ops := by
  have hkept : Kept names emaDecays.reduceOption disk fun decay =>
      (⟨⟨transformer, []⟩, fun dir => (disk dir decay).map fun m => ⟨m, []⟩⟩ : Logs Dir V) := by
    refine ⟨fun dir decay _ => ?_, fun decay _ dir l hl => ?_⟩
    · change disk dir decay = ((disk dir decay).map fun m => (⟨m, []⟩ : Log V)).map (Log.value decay)
      cases disk dir decay with
      | none => rfl
      | some m => exact congrArg some (value_nil decay m).symm
    · obtain ⟨m, hm, rfl⟩ := Option.map_eq_some_iff.1 hl
      exact hdisk dir decay m hm
  have hstart := restart_tracks (s := ⟨⟨transformer, [], []⟩, disk⟩) hkept hnames saveDir
  obtain ⟨htracks, halong⟩ := run_tracks hstart hops
  refine ⟨?_, halong⟩
  have hstates := htracks.states
  rw [htracks.decays] at hstates
  exact hstates

/-- a parameter and a buffer -/
def weights (v : ℚ) : Transformer ℚ := ⟨[("w", v)], [("b", v)]⟩

/-- two decays, one of them given twice -/
def halfAndZero : List (Option ℚ) := [some (1 / 2), none, some 0, some (1 / 2)]

/-- a save after the first update, a second update, and a process that goes back -/
def backOnce : List (Op String ℚ) :=
  [.update fun _ => some 4, .save "out", .update fun _ => some 7, .restart (weights 0) (some "out"), .update fun _ => some 2]

theorem ema_run_backOnce :
    (Run.run (World.step halfAndZero) ⟨prepareEma (fun _ _ => none : Disk String ℚ) halfAndZero none ⟨weights 8, [], []⟩,
      fun _ _ => none⟩ backOnce).precond.emaStates = [⟨[("w", 4)], [("b", 2)]⟩,
        ⟨[("w", 2)], [("b", 2)]⟩, ⟨[("w", 4)], [("b", 2)]⟩] := by
  have hdisk : ∀ (dir : String) (decay : ℚ) m, (fun _ _ => none : Disk String ℚ) dir decay = some m → m.names = ["w", "b"] := by
    rintro dir decay m ⟨⟩
  have hfits : ∀ o ∈ backOnce, o.Fits ["w", "b"] := by
    simp [backOnce, Op.Fits, Complete, weights, Transformer.names]
  refine (ema_run hdisk (rfl : (weights 8).names = _) halfAndZero none hfits).1.trans ?_
  have hlog : ∀ decay, (Run.run Logs.step (Logs.ofDisk (fun _ _ => none) (weights 8) none decay) backOnce).current =
      ⟨weights 8, [fun _ => some 4, fun _ => some 2]⟩ := fun decay => rfl
  have hdecays : halfAndZero.reduceOption = [1 / 2, 0, 1 / 2] := rfl
  simp only [hlog, hdecays]
  norm_num [Log.value, weights, source, movingAverage, Finset.sum_range_succ]

end Runs

end Viduce.Ema
