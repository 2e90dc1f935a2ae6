/-
The broadcast page (web/src/main.ts): a camera preview that starts on load, and a broadcast of it to a relay. Two
asynchronous functions wait for the camera, for the preview to play and for the relay; clicks, a lost connection and
pagehide may come between.

- `Shape`, `shape_step`: in every state the page waits for one thing at most, its buttons follow from that, and whatever
  runs is what its three variables name. `one_publisher`, `pagehide_releases`: what follows for every run.
- `released_step`: an event keeps what the page promises exactly if it does not open a camera or a connection while hidden.
- `released_iff`: so the promise holds all along a run exactly when no such event occurs; `hidden_iff`: when that is.
- `opens_after_pagehide`: a relay connection made after a pagehide, and a camera opened after one.

An event is a turn of the event loop. A promise settles at any later turn, as it likes.
-/
import Mathlib.Tactic
import Viduce.Core.Run

namespace Viduce.Broadcast

open Viduce.Run

/-! ## The page -/

/-- `PublishOptions`; the track is that of a pipeline -/
structure PublishOptions where
  relayUrl : String
  name : String
  track : ℕ
deriving DecidableEq, Repr

/-- the buttons, the badge, the inputs and the status line -/
structure Ui where
  live : Bool
  startText : String
  startDisabled : Bool
  stopDisabled : Bool
  inputsDisabled : Bool
  status : String
  statusIsError : Bool
deriving DecidableEq, Repr

/-- an `await` that has not returned -/
inductive Await where
  | camera
  | play
  | connect (options : PublishOptions)
deriving DecidableEq, Repr

/-- streams, pipelines and publishers are numbered as they are made -/
structure Page where
  stream : Option ℕ
  pipeline : Option ℕ
  publisher : Option ℕ
  /-- `preview.srcObject`, the track of a pipeline -/
  previewSource : Option ℕ
  ui : Ui
  awaiting : List Await
  next : ℕ
  /-- the camera streams that run -/
  cameras : List ℕ
  /-- the publishers that have not been stopped -/
  publishers : List ℕ
  /-- pagehide has fired, and no button was clicked since -/
  hidden : Bool
deriving DecidableEq, Repr

def previewing : String := "Previewing — not broadcasting"

/-- `setBadge` -/
def Ui.setBadge (ui : Ui) (live : Bool) : Ui := { ui with live := live }

/-- `setInputsDisabled` -/
def Ui.setInputsDisabled (ui : Ui) (disabled : Bool) : Ui := { ui with inputsDisabled := disabled }

/-- `setStatus` -/
def Ui.setStatus (ui : Ui) (message : String) (isError : Bool) : Ui := { ui with status := message, statusIsError := isError }

/-- `showPreviewing` -/
def Ui.showPreviewing (ui : Ui) (message : String) (isError : Bool) : Ui :=
  ({ ui.setBadge false with startText := "Start broadcast", startDisabled := false, stopDisabled := true }
    |>.setInputsDisabled false).setStatus message isError

/-- `showBroadcasting` -/
def Ui.showBroadcasting (ui : Ui) (name : String) : Ui :=
  ({ ui.setBadge true with startDisabled := true, stopDisabled := false }.setInputsDisabled true).setStatus
    s!"Broadcasting · 240×240 → {name}" false

namespace Page

/-- `publisher?.stop(); publisher = null` -/
def stopPublisher (s : Page) : Page :=
  { s with
    publishers := s.publishers.filter fun p => some p ≠ s.publisher
    publisher := none }

/-- `teardownPreview` -/
def teardownPreview (s : Page) : Page :=
  { s.stopPublisher with
    pipeline := none
    cameras := s.cameras.filter fun c => some c ≠ s.stream
    stream := none
    previewSource := none }

/-- `stopBroadcast` -/
def stopBroadcast (s : Page) (message : String) (isError : Bool) : Page :=
  { s.stopPublisher with ui := s.ui.showPreviewing message isError }

/-- `enablePreview`, up to the camera -/
def enablePreview (s : Page) : Page :=
  { s with
    ui := { s.ui with startDisabled := true }.setStatus "Starting camera…" false
    awaiting := s.awaiting ++ [.camera] }

/-- the `catch` of `enablePreview` -/
def previewFailed (s : Page) (message : String) : Page :=
  { s.teardownPreview with
    ui := { (s.ui.setBadge false).setStatus message true with
      startText := "Enable camera", startDisabled := false, stopDisabled := true }.setInputsDisabled false }

/-- `enablePreview` with the camera; the pipeline may throw -/
def cameraOpened (s : Page) (hasVideoTrack : Bool) (pipelineError : Option String) : Page :=
  let opened := { s with stream := some s.next, cameras := s.cameras ++ [s.next], next := s.next + 1 }
  if hasVideoTrack = false then opened.previewFailed "Camera stream has no video track."
  else
    match pipelineError with
    | some message => opened.previewFailed message
    | none =>
      { opened with
        pipeline := some opened.next
        previewSource := some opened.next
        next := opened.next + 1
        awaiting := opened.awaiting ++ [.play] }

/-- `startBroadcast`, up to the relay; the two inputs are trimmed -/
def startBroadcast (s : Page) (relayUrl name : String) : Page :=
  match s.pipeline with
  | none => s
  | some track =>
    { s with
      ui := ({ s.ui with startDisabled := true }.setInputsDisabled true).setStatus "Connecting to relay…" false
      awaiting := s.awaiting ++ [.connect ⟨relayUrl, name, track⟩] }

/-- `onStart` -/
def onStart (s : Page) (relayUrl name : String) : Page :=
  match s.stream with
  | some _ => s.startBroadcast relayUrl name
  | none => s.enablePreview

/-- `startBroadcast` with the publisher -/
def connected (s : Page) (options : PublishOptions) : Page :=
  { s with
    publisher := some s.next
    publishers := s.publishers ++ [s.next]
    next := s.next + 1
    ui := s.ui.showBroadcasting options.name }

/-- an `await` returns or throws, and the function it is in goes on -/
def resume (s : Page) (a : Await) (k : Page → Page) : Page :=
  if a ∈ s.awaiting then k { s with awaiting := s.awaiting.erase a } else s

end Page

inductive Event where
  | startClick (relayUrl name : String)
  | stopClick
  | cameraOpened (hasVideoTrack : Bool) (pipelineError : Option String)
  | cameraRejected (message : String)
  | played
  | playRejected (message : String)
  | connected (options : PublishOptions)
  | connectRejected (options : PublishOptions) (message : String)
  /-- the relay connection of a publisher has closed -/
  | closed (publisher : ℕ)
  | pagehide
deriving DecidableEq, Repr

/-- one turn of the event loop; a disabled button is not clicked -/
def step (s : Page) : Event → Page
  | .startClick relayUrl name =>
    if s.ui.startDisabled then s else { s with hidden := false }.onStart relayUrl name
  | .stopClick => if s.ui.stopDisabled then s else { s with hidden := false }.stopBroadcast previewing false
  | .cameraOpened hasVideoTrack pipelineError =>
    s.resume .camera fun s => s.cameraOpened hasVideoTrack pipelineError
  | .cameraRejected message => s.resume .camera fun s => s.previewFailed message
  | .played => s.resume .play fun s => { s with ui := s.ui.showPreviewing previewing false }
  | .playRejected message => s.resume .play fun s => s.previewFailed message
  | .connected options => s.resume (.connect options) fun s => s.connected options
  | .connectRejected options message => s.resume (.connect options) fun s => s.stopBroadcast message true
  -- `onClosed`
  | .closed publisher => if s.publisher = some publisher then s.stopBroadcast "Relay connection closed." true else s
  | .pagehide => { s with hidden := true }.teardownPreview

/-- the markup -/
def markup : Ui := ⟨false, "Start broadcast", true, true, false, "Idle", false⟩

/-- the page, loaded -/
def loaded : Page := Page.enablePreview ⟨none, none, none, none, markup, [], 0, [], [], false⟩

/-! ## The phases -/

inductive Phase where
  | idle
  | camera
  | play
  | connect (options : PublishOptions)
  | live

/-- what the page is doing: what it waits for, which buttons are enabled, and what it holds then -/
def Page.In (s : Page) : Phase → Prop
  | .idle => s.awaiting = [] ∧ s.ui.startDisabled = false ∧ s.ui.stopDisabled = true ∧ s.publisher = none
  | .camera =>
    s.awaiting = [.camera] ∧ s.ui.startDisabled = true ∧ s.ui.stopDisabled = true ∧ s.publisher = none ∧ s.stream = none
  | .play => s.awaiting = [.play] ∧ s.ui.startDisabled = true ∧ s.ui.stopDisabled = true ∧ s.publisher = none
  | .connect options =>
    s.awaiting = [.connect options] ∧ s.ui.startDisabled = true ∧ s.ui.stopDisabled = true ∧ s.publisher = none ∧
      (s.hidden = false → s.stream.isSome)
  | .live => s.awaiting = [] ∧ s.ui.startDisabled = true ∧ s.ui.stopDisabled = false

/-- what runs is what the variables name -/
structure Page.Held (s : Page) : Prop where
  pipeline : s.pipeline.isSome = s.stream.isSome
  cameras : s.cameras = s.stream.toList
  publishers : s.publishers = s.publisher.toList

structure Shape (s : Page) : Prop where
  held : s.Held
  phase : ∃ p, s.In p

variable {s : Page}

theorem loaded_shape : Shape loaded := ⟨⟨rfl, rfl, rfl⟩, .camera, rfl, rfl, rfl, rfl, rfl⟩

/-- an enabled Start button -/
theorem Shape.of_start (h : Shape s) (hstart : s.ui.startDisabled = false) : s.In .idle := by
  obtain ⟨p, hp⟩ := h.phase
  cases p with
  | idle => exact hp
  | camera | play | connect | live => exact absurd (hp.2.1.symm.trans hstart) (by decide)

/-- an enabled Stop button -/
theorem Shape.of_stop (h : Shape s) (hstop : s.ui.stopDisabled = false) : s.In .live := by
  obtain ⟨p, hp⟩ := h.phase
  cases p with
  | live => exact hp
  | idle => exact absurd (hp.2.2.1.symm.trans hstop) (by decide)
  | camera | play | connect => exact absurd (hp.2.2.1.symm.trans hstop) (by decide)

/-- a publisher -/
theorem Shape.of_publisher (h : Shape s) {p : ℕ} (hp : s.publisher = some p) : s.In .live := by
  obtain ⟨q, hq⟩ := h.phase
  cases q with
  | live => exact hq
  | idle => exact absurd (hq.2.2.2.symm.trans hp) nofun
  | camera | connect => exact absurd (hq.2.2.2.1.symm.trans hp) nofun
  | play => exact absurd (hq.2.2.2.symm.trans hp) nofun

/-- the phase of an `await` -/
def Await.phase : Await → Phase
  | .camera => .camera
  | .play => .play
  | .connect options => .connect options

/-- an `await` -/
theorem Shape.of_await (h : Shape s) {a : Await} (ha : a ∈ s.awaiting) : s.awaiting = [a] ∧ s.In a.phase := by
  obtain ⟨p, hp⟩ := h.phase
  cases p with
  | idle | live => exact absurd (hp.1 ▸ ha) List.not_mem_nil
  | camera | play | connect =>
    rw [hp.1, List.mem_singleton] at ha
    rw [ha]
    exact ⟨hp.1, hp⟩

/-! ## What the functions keep -/

theorem filter_toList (o : Option ℕ) : (o.toList.filter fun x => some x ≠ o) = [] := by
  cases o <;> simp

theorem Page.Held.stopPublisher (h : s.Held) : s.stopPublisher.Held :=
  ⟨h.pipeline, h.cameras, by rw [Page.stopPublisher, h.publishers]; exact filter_toList _⟩

theorem Page.Held.teardownPreview (h : s.Held) : s.teardownPreview.Held :=
  ⟨rfl, by rw [Page.teardownPreview, h.cameras]; exact filter_toList _, h.stopPublisher.publishers⟩

theorem shape_onStart (h : s.Held) (hin : s.In .idle) (relayUrl name : String) : Shape (s.onStart relayUrl name) := by
  obtain ⟨hawait, -, hstop, hpub⟩ := hin
  have hpair := h.pipeline
  unfold Page.onStart
  split
  · rename_i camera hstream
    rw [hstream] at hpair
    obtain ⟨track, htrack⟩ := Option.isSome_iff_exists.1 hpair
    simp only [Page.startBroadcast, htrack]
    refine ⟨⟨?_, h.cameras, h.publishers⟩, .connect ⟨relayUrl, name, track⟩, ?_, rfl, hstop, hpub, ?_⟩
    · rw [hstream]
      rfl
    · rw [hawait, List.nil_append]
    · intro _
      rw [hstream]
      rfl
  · rename_i hstream
    exact ⟨⟨h.pipeline, h.cameras, h.publishers⟩, .camera, congrArg (· ++ [Await.camera]) hawait, rfl, hstop, hpub, hstream⟩

theorem shape_stopBroadcast (h : s.Held) (ha : s.awaiting = []) (message : String) (isError : Bool) :
    Shape (s.stopBroadcast message isError) :=
  ⟨⟨h.pipeline, h.cameras, h.stopPublisher.publishers⟩, .idle, ha, rfl, rfl, rfl⟩

theorem shape_previewFailed (h : s.Held) (ha : s.awaiting = []) (message : String) : Shape (s.previewFailed message) := by
  have ht := h.teardownPreview
  exact ⟨⟨ht.pipeline, ht.cameras, ht.publishers⟩, .idle, ha, rfl, rfl, rfl⟩

theorem shape_cameraOpened (h : s.Held) (ha : s.awaiting = []) (hstart : s.ui.startDisabled = true)
    (hstop : s.ui.stopDisabled = true) (hpub : s.publisher = none) (hstream : s.stream = none) (hasVideoTrack : Bool)
    (pipelineError : Option String) : Shape (s.cameraOpened hasVideoTrack pipelineError) := by
  have hcameras : s.cameras ++ [s.next] = [s.next] := by
    rw [h.cameras, hstream]
    rfl
  -- a failure stops the camera that has just been opened
  have hfailed : ∀ message, Shape
      ({ s with stream := some s.next, cameras := s.cameras ++ [s.next], next := s.next + 1 }.previewFailed message) := by
    intro message
    refine ⟨⟨rfl, ?_, h.stopPublisher.publishers⟩, .idle, ha, rfl, rfl, rfl⟩
    simp only [Page.previewFailed, Page.teardownPreview, hcameras]
    exact filter_toList (some s.next)
  unfold Page.cameraOpened
  dsimp only
  split_ifs with htrack
  · exact hfailed _
  · cases pipelineError with
    | some message => exact hfailed message
    | none => exact ⟨⟨rfl, hcameras, h.publishers⟩, .play, congrArg (· ++ [Await.play]) ha, hstart, hstop, hpub⟩

theorem shape_connected (h : s.Held) (ha : s.awaiting = []) (hpub : s.publisher = none) (options : PublishOptions) :
    Shape (s.connected options) := by
  refine ⟨⟨h.pipeline, h.cameras, ?_⟩, .live, ha, rfl, rfl⟩
  simp only [Page.connected, h.publishers, hpub]
  rfl

theorem shape_teardownPreview (h : Shape s) : Shape { s with hidden := true }.teardownPreview := by
  have ht : ({ s with hidden := true } : Page).teardownPreview.Held := Page.Held.teardownPreview ⟨h.held.1, h.held.2, h.held.3⟩
  obtain ⟨p, hp⟩ := h.phase
  refine ⟨ht, p, ?_⟩
  cases p with
  | idle => exact ⟨hp.1, hp.2.1, hp.2.2.1, rfl⟩
  | camera => exact ⟨hp.1, hp.2.1, hp.2.2.1, rfl, rfl⟩
  | play => exact ⟨hp.1, hp.2.1, hp.2.2.1, rfl⟩
  | connect => exact ⟨hp.1, hp.2.1, hp.2.2.1, rfl, nofun⟩
  | live => exact hp

/-- the page as its function goes on -/
theorem Page.resume_eq {a : Await} (k : Page → Page) (ha : s.awaiting = [a]) :
    s.resume a k = k { s with awaiting := [] } := by
  have hmem : a ∈ s.awaiting := ha ▸ List.mem_singleton_self a
  rw [Page.resume, if_pos hmem, ha, List.erase_cons_head]

/-- a function goes on from the phase of its `await`, or nothing happens -/
theorem Shape.resume (h : Shape s) {a : Await} {k : Page → Page} {P : Page → Prop} (hs : a ∉ s.awaiting → P s)
    (hk : s.awaiting = [a] → s.In a.phase → P (k { s with awaiting := [] })) : P (s.resume a k) := by
  by_cases ha : a ∈ s.awaiting
  · obtain ⟨hawait, hin⟩ := h.of_await ha
    rw [Page.resume_eq k hawait]
    exact hk hawait hin
  · rw [Page.resume, if_neg ha]
    exact hs ha

/-! ## Every step -/

theorem shape_step (h : Shape s) (e : Event) : Shape (step s e) := by
  have hclicked : ({ s with hidden := false } : Page).Held := ⟨h.held.pipeline, h.held.cameras, h.held.publishers⟩
  have hresumed : ({ s with awaiting := [] } : Page).Held := ⟨h.held.pipeline, h.held.cameras, h.held.publishers⟩
  cases e with
  | startClick relayUrl name =>
    rw [step]
    split_ifs with hstart
    · exact h
    · exact shape_onStart hclicked (h.of_start (eq_false_of_ne_true hstart)) relayUrl name
  | stopClick =>
    rw [step]
    split_ifs with hstop
    · exact h
    · exact shape_stopBroadcast hclicked (h.of_stop (eq_false_of_ne_true hstop)).1 _ _
  | cameraOpened hasVideoTrack pipelineError =>
    rw [step]
    refine h.resume (fun _ => h) fun _ hin => ?_
    obtain ⟨-, hstart, hstop, hpub, hstream⟩ := hin
    exact shape_cameraOpened hresumed rfl hstart hstop hpub hstream _ _
  | cameraRejected message =>
    rw [step]
    exact h.resume (fun _ => h) fun _ _ => shape_previewFailed hresumed rfl message
  | played =>
    rw [step]
    refine h.resume (fun _ => h) fun _ hin => ?_
    obtain ⟨-, -, -, hpub⟩ := hin
    exact ⟨⟨h.held.pipeline, h.held.cameras, h.held.publishers⟩, .idle, rfl, rfl, rfl, hpub⟩
  | playRejected message =>
    rw [step]
    exact h.resume (fun _ => h) fun _ _ => shape_previewFailed hresumed rfl message
  | connected options =>
    rw [step]
    refine h.resume (fun _ => h) fun _ hin => ?_
    obtain ⟨-, -, -, hpub, -⟩ := hin
    exact shape_connected hresumed rfl hpub options
  | connectRejected options message =>
    rw [step]
    exact h.resume (fun _ => h) fun _ _ => shape_stopBroadcast hresumed rfl message true
  | closed publisher =>
    rw [step]
    split_ifs with hpub
    · exact shape_stopBroadcast h.held (h.of_publisher hpub).1 _ _
    · exact h
  | pagehide => exact shape_teardownPreview h

/-- the page after any events -/
theorem shape_run (l : List Event) : Shape (run step loaded l) :=
  run_inv (P := Shape) (fun _ e h => shape_step h e) loaded_shape l

/-- **One publisher.** -/
theorem one_publisher (l : List Event) : (run step loaded l).publishers.length ≤ 1 := by
  rw [(shape_run l).held.publishers]
  exact Option.length_toList_le

/-- **Pagehide.** Right after it nothing runs. -/
theorem pagehide_releases (l : List Event) :
    (run step loaded (l ++ [.pagehide])).publishers = [] ∧ (run step loaded (l ++ [.pagehide])).cameras = [] := by
  have hheld := (shape_run (l ++ [.pagehide])).held
  rw [run_snoc] at hheld ⊢
  exact ⟨hheld.publishers, hheld.cameras⟩

/-! ## What is promised -/

/-- at most one publisher runs, there is one only with a stream and a pipeline, and while the page is hidden neither a
publisher nor a camera runs -/
def Page.Released (s : Page) : Prop :=
  s.publishers.length ≤ 1 ∧ (s.publisher ≠ none → s.stream ≠ none ∧ s.pipeline ≠ none) ∧
    (s.hidden = true → s.publishers = [] ∧ s.cameras = [])

instance (s : Page) : Decidable s.Released :=
  inferInstanceAs (Decidable (_ ∧ (_ → _ ∧ _) ∧ (_ → _ ∧ _)))

/-- an awaited camera is opened, with a track and a pipeline, or an awaited connection made, while the page is hidden -/
def OpensHidden (s : Page) (e : Event) : Prop :=
  s.hidden = true ∧
    match e with
    | .cameraOpened hasVideoTrack pipelineError => .camera ∈ s.awaiting ∧ hasVideoTrack = true ∧ pipelineError = none
    | .connected options => .connect options ∈ s.awaiting
    | _ => False

/-- without a publisher only a hidden camera would break the promise -/
theorem released_of_stopped (h : Shape s) (hpub : s.publisher = none) (hstream : s.hidden = true → s.stream = none) :
    s.Released := by
  have hnone : s.publishers = [] := by rw [h.held.publishers, hpub]; rfl
  refine ⟨by rw [hnone]; exact Nat.zero_le 1, fun hsome => absurd hpub hsome, fun hhidden => ⟨hnone, ?_⟩⟩
  rw [h.held.cameras, hstream hhidden]
  rfl

theorem stream_eq_none (h : Shape s) (hr : s.Released) (hhidden : s.hidden = true) : s.stream = none := by
  have hcameras := (hr.2.2 hhidden).2
  rwa [h.held.cameras, Option.toList_eq_nil_iff] at hcameras

theorem onStart_publisher (s : Page) (relayUrl name : String) : (s.onStart relayUrl name).publisher = s.publisher := by
  unfold Page.onStart Page.startBroadcast
  split
  · split <;> rfl
  · rfl

theorem onStart_hidden (s : Page) (relayUrl name : String) : (s.onStart relayUrl name).hidden = s.hidden := by
  unfold Page.onStart Page.startBroadcast
  split
  · split <;> rfl
  · rfl

/-- a function goes on and leaves no publisher -/
theorem released_resume (h : Shape s) (hr : s.Released) {a : Await} {k : Page → Page} (hs : Shape (s.resume a k))
    (hk : s.In a.phase → (k { s with awaiting := [] }).publisher = none ∧
      ((k { s with awaiting := [] }).hidden = true → (k { s with awaiting := [] }).stream = none)) :
    (s.resume a k).Released := by
  refine h.resume (P := fun s' => Shape s' → s'.Released) (fun _ _ => hr) (fun _ hin hs' => ?_) hs
  obtain ⟨hpub, hstream⟩ := hk hin
  exact released_of_stopped hs' hpub hstream

/-- the camera -/
theorem released_cameraOpened (h : Shape s) (hr : s.Released) (hasVideoTrack : Bool) (pipelineError : Option String) :
    (step s (.cameraOpened hasVideoTrack pipelineError)).Released ↔
      ¬ OpensHidden s (.cameraOpened hasVideoTrack pipelineError) := by
  have hshape := shape_step h (.cameraOpened hasVideoTrack pipelineError)
  rw [step] at hshape ⊢
  by_cases ha : .camera ∈ s.awaiting
  · obtain ⟨hawait, -, -, -, hpub, -⟩ := h.of_await ha
    rw [Page.resume_eq _ hawait] at hshape ⊢
    cases hasVideoTrack with
    | false => exact iff_of_true (released_of_stopped hshape rfl fun _ => rfl) fun hopens => nomatch hopens.2.2.1
    | true =>
      cases pipelineError with
      | some message => exact iff_of_true (released_of_stopped hshape rfl fun _ => rfl) fun hopens => nomatch hopens.2.2.2
      | none =>
        -- the camera runs now, which only a page in sight may have
        constructor
        · intro hreleased hopens
          exact nomatch stream_eq_none hshape hreleased hopens.1
        · intro hquiet
          exact released_of_stopped hshape hpub fun hhidden => absurd ⟨hhidden, ha, rfl, rfl⟩ hquiet
  · rw [Page.resume, if_neg ha]
    exact iff_of_true hr fun hopens => ha hopens.2.1

/-- the relay -/
theorem released_connected (h : Shape s) (hr : s.Released) (options : PublishOptions) :
    (step s (.connected options)).Released ↔ ¬ OpensHidden s (.connected options) := by
  have hshape := shape_step h (.connected options)
  rw [step] at hshape ⊢
  by_cases ha : .connect options ∈ s.awaiting
  · obtain ⟨hawait, -, -, -, -, hvisible⟩ := h.of_await ha
    rw [Page.resume_eq _ hawait] at hshape ⊢
    have hpublishers := hshape.held.publishers
    constructor
    · intro hreleased hopens
      rw [(hreleased.2.2 hopens.1).1] at hpublishers
      exact nomatch hpublishers
    · intro hquiet
      -- not hidden, the page still has the stream and the pipeline it started with
      have hshown : s.hidden = false := eq_false_of_ne_true fun hhidden => hquiet ⟨hhidden, ha⟩
      have hsome := hvisible hshown
      refine ⟨?_, fun _ => ⟨?_, ?_⟩, fun hhidden => ?_⟩
      · rw [hpublishers]
        exact Option.length_toList_le
      · exact Option.isSome_iff_ne_none.1 hsome
      · exact Option.isSome_iff_ne_none.1 (h.held.pipeline.trans hsome)
      · cases hshown.symm.trans hhidden
  · rw [Page.resume, if_neg ha]
    exact iff_of_true hr fun hopens => ha hopens.2

/-- **One step.** It keeps the promise exactly if it opens nothing while the page is hidden. -/
theorem released_step (h : Shape s) (hr : s.Released) (e : Event) : (step s e).Released ↔ ¬ OpensHidden s e := by
  have hshape := shape_step h e
  have hstream := stream_eq_none h hr
  cases e with
  | cameraOpened hasVideoTrack pipelineError => exact released_cameraOpened h hr hasVideoTrack pipelineError
  | connected options => exact released_connected h hr options
  | startClick relayUrl name =>
    refine iff_of_true ?_ fun hopens => hopens.2
    rw [step] at hshape ⊢
    by_cases hstart : s.ui.startDisabled = true
    · rwa [if_pos hstart]
    · rw [if_neg hstart] at hshape ⊢
      obtain ⟨-, -, -, hpub⟩ := h.of_start (eq_false_of_ne_true hstart)
      apply released_of_stopped hshape
      · rw [onStart_publisher]
        exact hpub
      · rw [onStart_hidden]
        intro hhidden
        cases hhidden
  | stopClick =>
    refine iff_of_true ?_ fun hopens => hopens.2
    rw [step] at hshape ⊢
    by_cases hstop : s.ui.stopDisabled = true
    · rwa [if_pos hstop]
    · rw [if_neg hstop] at hshape ⊢
      apply released_of_stopped hshape rfl
      intro hhidden
      cases hhidden
  | cameraRejected | playRejected =>
    refine iff_of_true ?_ fun hopens => hopens.2
    exact released_resume h hr hshape fun _ => ⟨rfl, fun _ => rfl⟩
  | played =>
    refine iff_of_true ?_ fun hopens => hopens.2
    exact released_resume h hr hshape fun hin => ⟨hin.2.2.2, hstream⟩
  | connectRejected =>
    refine iff_of_true ?_ fun hopens => hopens.2
    exact released_resume h hr hshape fun _ => ⟨rfl, hstream⟩
  | closed publisher =>
    refine iff_of_true ?_ fun hopens => hopens.2
    rw [step] at hshape ⊢
    by_cases hpub : s.publisher = some publisher
    · rw [if_pos hpub] at hshape ⊢
      exact released_of_stopped hshape rfl hstream
    · rwa [if_neg hpub]
  | pagehide => exact iff_of_true (released_of_stopped hshape rfl fun _ => rfl) fun hopens => hopens.2

/-! ## Every run -/

/-- **Released.** The page keeps its promise in every state of a run exactly if, in the run, no awaited camera is opened
and no awaited connection made while the page is hidden. -/
theorem released_iff (l : List Event) :
    Always step Page.Released loaded l ↔ Along step (fun s e => ¬ OpensHidden s e) loaded l := by
  rw [← always_and (Q := Shape) (fun s e h => shape_step h e) loaded_shape l]
  apply always_iff_along
  · intro s e h
    rw [released_step h.2 h.1 e]
    exact and_iff_left (shape_step h.2 e)
  · exact ⟨by decide, loaded_shape⟩

/-- a click on a button that is enabled -/
def Clicks (s : Page) : Event → Prop
  | .startClick _ _ => s.ui.startDisabled = false
  | .stopClick => s.ui.stopDisabled = false
  | _ => False

theorem resume_hidden (s : Page) (a : Await) {k : Page → Page} (hk : ∀ s : Page, (k s).hidden = s.hidden) :
    (s.resume a k).hidden = s.hidden := by
  unfold Page.resume
  split_ifs
  · exact hk _
  · rfl

theorem cameraOpened_hidden (s : Page) (hasVideoTrack : Bool) (pipelineError : Option String) :
    (s.cameraOpened hasVideoTrack pipelineError).hidden = s.hidden := by
  cases hasVideoTrack with
  | false => rfl
  | true => cases pipelineError <;> rfl

theorem hidden_step (s : Page) (e : Event) :
    (step s e).hidden = true ↔ e = .pagehide ∨ (s.hidden = true ∧ ¬ Clicks s e) := by
  cases e with
  | startClick relayUrl name =>
    rw [step]
    split_ifs with hstart
    · simp [Clicks, hstart]
    · simp [Clicks, hstart, onStart_hidden]
  | stopClick =>
    rw [step]
    split_ifs with hstop
    · simp [Clicks, hstop]
    · simp [Clicks, hstop, Page.stopBroadcast, Page.stopPublisher]
  | cameraOpened hasVideoTrack pipelineError =>
    rw [step, resume_hidden s .camera fun s => cameraOpened_hidden s hasVideoTrack pipelineError]
    simp [Clicks]
  | cameraRejected | played | playRejected | connected | connectRejected =>
    rw [step, resume_hidden]
    · simp [Clicks]
    · exact fun _ => rfl
  | closed publisher =>
    rw [step]
    split_ifs <;> simp [Clicks, Page.stopBroadcast, Page.stopPublisher]
  | pagehide => simp [step, Page.teardownPreview, Page.stopPublisher]

/-- **Hidden.** The page is hidden from a pagehide on until an enabled button is clicked. -/
theorem hidden_iff (l : List Event) :
    (run step loaded l).hidden = true ↔ Since step (fun _ e => e = .pagehide) Clicks loaded l :=
  iff_since (P := fun s => s.hidden = true) (Q := fun _ => True) (fun _ _ h => h) (fun s e _ => hidden_step s e) trivial
    (by decide) l

/-- **After a pagehide.** The relay answers after the page was hidden, and the camera is granted after the page was
hidden. -/
theorem opens_after_pagehide :
    ¬ Always step Page.Released loaded
      [.cameraOpened true none, .played, .startClick "http://localhost:4443" "viduce/cam", .pagehide,
        .connected ⟨"http://localhost:4443", "viduce/cam", 1⟩] ∧
    ¬ Always step Page.Released loaded [.pagehide, .cameraOpened true none] := by
  constructor
  · intro h
    exact absurd (h _ [] (List.append_nil _).symm) (by decide)
  · intro h
    exact absurd (h _ [] (List.append_nil _).symm) (by decide)

end Viduce.Broadcast
