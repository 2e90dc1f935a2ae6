/-
The frame reader of the engine (`frame_reader.cc`). One loop reads a packet, sends it to the decoder of its stream and
receives at most one frame; at the end of the file it sends the blank packet, whose stream index is 0.

- `readNextFrame_isSome`: the loop returns.
- `readsAll_iterate`: repeated calls, one iteration of the loop at a time.
- `lossless_step`, `reads_iff`: what is still owed to each stream, from one iteration to the next.
- `loses_no_frame_iff`: every frame of every stream is returned exactly when no send is refused and every stream but the
  first has nothing left after its last packet.
- `second_stream_loses_frame`: a decoder that holds one frame back, as stream 1.

FFmpeg's decoders are codecs behind its send/receive interface; its demuxer is the list of what it still has to answer.
The allocation of frames is taken to succeed.
-/
import Mathlib.Tactic
import Viduce.Core.SendReceive

namespace Viduce.Engine

open Viduce.SendReceive

variable {σ P F : Type}

/-! ## FFmpeg -/

inductive AVMediaType where
  | unknown
  | video
  | audio
deriving DecidableEq, Repr

/-- a packet; the blank one has no data -/
structure AVPacket (P : Type) where
  data : Option P
  streamIndex : ℤ

/-- what `av_packet_unref` leaves -/
def AVPacket.blank : AVPacket P := ⟨none, 0⟩

structure AVStream (σ P F : Type) where
  codecType : AVMediaType
  /-- the decoder that `avcodec_find_decoder` finds for it -/
  decoder : Codec σ P F

structure AVFormatContext (σ P F : Type) where
  streams : List (AVStream σ P F)
  /-- what `av_read_frame` has still to answer before the end of the file -/
  reads : List (Except Refusal (AVPacket P))

/-- `av_read_frame` -/
def avReadFrame (formatCtx : AVFormatContext σ P F) : Except Refusal (AVPacket P) × AVFormatContext σ P F :=
  match formatCtx.reads with
  | [] => (.error .eof, formatCtx)
  | answer :: rest => (answer, { formatCtx with reads := rest })

/-! ## The reader -/

/-- an `absl::Status` that is not OK; all those of the reader are kInternal -/
structure Status where
  message : String
deriving DecidableEq, Repr

structure Frame (F : Type) where
  streamIndex : ℤ
  mediaType : AVMediaType
  frame : F

structure FrameReader (σ P F : Type) where
  formatCtx : AVFormatContext σ P F
  codecs : List (Context σ P F)

/-- what `ReadNextFrame` returns; `none` is `nullptr` -/
abbrev Result (F : Type) : Type := Except Status (Option (Frame F))

section Reader

-- `util::AvErrToStr`, FFmpeg's error texts
variable (avErrToStr : Refusal → String)

/-- the body of the loop, from the packet on; `none` is `continue` -/
def FrameReader.feed (r : FrameReader σ P F) (packet : AVPacket P) : Option (Result F) × FrameReader σ P F :=
  if h : packet.streamIndex < 0 ∨ r.codecs.length ≤ packet.streamIndex.toNat then
    (some (.error ⟨s!"Packet has out-of-range stream_index: {packet.streamIndex} (have {r.codecs.length} streams)"⟩), r)
  else
    let index := packet.streamIndex.toNat
    have hindex : index < r.codecs.length := by omega
    let sent := r.codecs[index].send packet.data
    match sent.1 with
    | .ok () | .error .eof =>
      let mediaType := r.formatCtx.streams[index]?.elim .unknown AVStream.codecType
      let received := sent.2.receive
      let r' := { r with codecs := r.codecs.set index received.2 }
      match received.1 with
      -- more packets are needed before frames can be received
      | .error .eagain => (none, r')
      | .error .eof => (some (.ok none), r')
      | .error e => (some (.error ⟨s!"Error receiving frame for decoding with error: {avErrToStr e}"⟩), r')
      | .ok frame => (some (.ok (some ⟨packet.streamIndex, mediaType, frame⟩)), r')
    | .error e =>
      (some (.error ⟨s!"Error sending packet for decoding with error: {avErrToStr e}"⟩),
        { r with codecs := r.codecs.set index sent.2 })

/-- one iteration of the loop; at the end of the file the packet is the blank one -/
def FrameReader.iterate (r : FrameReader σ P F) : Option (Result F) × FrameReader σ P F :=
  let read := avReadFrame r.formatCtx
  let r' := { r with formatCtx := read.2 }
  match read.1 with
  | .ok packet => r'.feed avErrToStr packet
  | .error .eof => r'.feed avErrToStr AVPacket.blank
  | .error e => (some (.error ⟨s!"Error reading frame with error: {avErrToStr e}"⟩), r')

/-- `while (true)`, for so many iterations -/
def FrameReader.loop (r : FrameReader σ P F) : ℕ → Option (Result F × FrameReader σ P F)
  | 0 => none
  | fuel + 1 =>
    match r.iterate avErrToStr with
    | (some result, r') => some (result, r')
    | (none, r') => r'.loop fuel

/-- `ReadNextFrame`: an iteration for every answer of the demuxer, and one at the end of the file -/
def FrameReader.readNextFrame (r : FrameReader σ P F) : Option (Result F × FrameReader σ P F) :=
  r.loop avErrToStr (r.formatCtx.reads.length + 1)

/-- calls of `ReadNextFrame` until it returns `nullptr`, none of them an error, and the frames they return -/
inductive ReadsAll : FrameReader σ P F → List (Frame F) → Prop
  | eof {r r' : FrameReader σ P F} (h : r.readNextFrame avErrToStr = some (.ok none, r')) : ReadsAll r []
  | frame {r r' : FrameReader σ P F} {f : Frame F} {fs : List (Frame F)}
      (h : r.readNextFrame avErrToStr = some (.ok (some f), r')) (rest : ReadsAll r' fs) : ReadsAll r (f :: fs)

/-! ## One iteration -/

/-- the reader with the codec of one stream replaced -/
def FrameReader.setCodec (r : FrameReader σ P F) (i : ℕ) (c : Context σ P F) : FrameReader σ P F :=
  { r with codecs := r.codecs.set i c }

/-- the media type a frame of this stream is tagged with -/
def FrameReader.mediaType (r : FrameReader σ P F) (i : ℕ) : AVMediaType :=
  r.formatCtx.streams[i]?.elim .unknown AVStream.codecType

/-- the send is not an error: the packet is taken, or the decoder has had its blank packet -/
def Sends (c : Context σ P F) (data : Option P) (c' : Context σ P F) : Prop :=
  c.send data = (.ok (), c') ∨ c.send data = (.error .eof, c')

variable {r : FrameReader σ P F} {i : ℕ} {c c' : Context σ P F} {data : Option P}

/-- a packet of stream i, once sent -/
theorem feed_sent (hc : r.codecs[i]? = some c) (h : Sends c data c') :
    r.feed avErrToStr ⟨data, i⟩ =
      match c'.receive.1 with
      | .error .eagain => (none, r.setCodec i c'.receive.2)
      | .error .eof => (some (.ok none), r.setCodec i c'.receive.2)
      | .error e => (some (.error ⟨s!"Error receiving frame for decoding with error: {avErrToStr e}"⟩),
          r.setCodec i c'.receive.2)
      | .ok frame => (some (.ok (some ⟨i, r.mediaType i, frame⟩)), r.setCodec i c'.receive.2) := by
  obtain ⟨hi, hget⟩ := List.getElem?_eq_some_iff.1 hc
  have hrange : ¬ ((i : ℤ) < 0 ∨ r.codecs.length ≤ (i : ℤ).toNat) := by omega
  unfold FrameReader.feed
  rw [dif_neg hrange]
  simp only [Int.toNat_natCast, hget]
  rcases h with h | h
  · simp only [h]
    rfl
  · simp only [h]
    rfl

/-- a refused send is an error -/
theorem feed_refused (hc : r.codecs[i]? = some c) (hd : c.draining = false) (hr : c.ready = false) (data : Option P) :
    ∃ status r', r.feed avErrToStr ⟨data, i⟩ = (some (.error status), r') := by
  obtain ⟨hi, hget⟩ := List.getElem?_eq_some_iff.1 hc
  have hrange : ¬ ((i : ℤ) < 0 ∨ r.codecs.length ≤ (i : ℤ).toNat) := by omega
  unfold FrameReader.feed
  rw [dif_neg hrange]
  simp only [Int.toNat_natCast, hget, Context.send_refused hd hr]
  exact ⟨_, _, rfl⟩

/-- a decoder with nothing to deliver asks for more -/
theorem feed_again (hc : r.codecs[i]? = some c) (h : Sends c data c') (hd : c'.draining = false) (hq : c'.queue = []) :
    r.feed avErrToStr ⟨data, i⟩ = (none, r.setCodec i c') := by
  rw [feed_sent avErrToStr hc h, Context.receive_nil hq, hd]
  rfl

/-- a drained decoder ends the reading -/
theorem feed_eof (hc : r.codecs[i]? = some c) (h : Sends c data c') (hd : c'.draining = true) (hq : c'.queue = []) :
    r.feed avErrToStr ⟨data, i⟩ = (some (.ok none), r.setCodec i c') := by
  rw [feed_sent avErrToStr hc h, Context.receive_nil hq, hd]
  rfl

/-- a decoder with a frame delivers it -/
theorem feed_frame (hc : r.codecs[i]? = some c) (h : Sends c data c') {y : F} {q : List F} (hq : c'.queue = y :: q) :
    r.feed avErrToStr ⟨data, i⟩ =
      (some (.ok (some ⟨i, r.mediaType i, y⟩)), r.setCodec i { c' with queue := q }) := by
  rw [feed_sent avErrToStr hc h, Context.receive_cons hq]

/-- without streams the blank packet is out of range -/
theorem feed_no_streams (hr : r.codecs = []) (packet : AVPacket P) :
    ∃ status, r.feed avErrToStr packet = (some (.error status), r) := by
  unfold FrameReader.feed
  rw [dif_pos (Or.inr (by simp [hr]))]
  exact ⟨_, rfl⟩

theorem blank_eq : (AVPacket.blank : AVPacket P) = ⟨none, (0 : ℕ)⟩ := rfl

/-- a decoder that has the blank packet does not ask for more -/
theorem feed_blank (r : FrameReader σ P F) : (r.feed avErrToStr AVPacket.blank).1 ≠ none := by
  rcases hcodecs : r.codecs with _ | ⟨c, rest⟩
  · obtain ⟨status, h⟩ := feed_no_streams avErrToStr hcodecs AVPacket.blank
    rw [h]
    exact Option.some_ne_none _
  · have hc : r.codecs[0]? = some c := by rw [hcodecs]; rfl
    have hdrained : ∀ c', Sends c none c' → c'.draining = true → (r.feed avErrToStr AVPacket.blank).1 ≠ none := by
      intro c' h hd
      rw [blank_eq]
      cases hq : c'.queue with
      | nil =>
        rw [feed_eof avErrToStr hc h hd hq]
        exact Option.some_ne_none _
      | cons y q =>
        rw [feed_frame avErrToStr hc h hq]
        exact Option.some_ne_none _
    cases hd : c.draining with
    | true => exact hdrained c (Or.inr (Context.send_draining hd none)) hd
    | false =>
      cases hr : c.ready with
      | true => exact hdrained c.drain (Or.inl (Context.send_ready hd hr none)) rfl
      | false =>
        obtain ⟨status, r', h⟩ := feed_refused avErrToStr hc hd hr none
        rw [blank_eq, h]
        exact Option.some_ne_none _

theorem feed_formatCtx (r : FrameReader σ P F) (packet : AVPacket P) :
    (r.feed avErrToStr packet).2.formatCtx = r.formatCtx := by
  unfold FrameReader.feed
  split
  · rfl
  · simp only
    split
    · split <;> rfl
    · split <;> rfl
    · rfl

/-! ## The loop returns -/

/-- an iteration that goes on has read a packet -/
theorem iterate_none {r' : FrameReader σ P F} (h : r.iterate avErrToStr = (none, r')) :
    r.formatCtx.reads.length = r'.formatCtx.reads.length + 1 := by
  unfold FrameReader.iterate avReadFrame at h
  cases hreads : r.formatCtx.reads with
  | nil =>
    simp only [hreads] at h
    exact absurd (congrArg Prod.fst h) (feed_blank avErrToStr _)
  | cons answer rest =>
    simp only [hreads] at h
    rcases answer with (_ | _ | _) | packet
    · cases h
    · exact absurd (congrArg Prod.fst h) (feed_blank avErrToStr _)
    · cases h
    · have hctx := congrArg (fun x => x.2.formatCtx.reads) h
      simp only [feed_formatCtx] at hctx
      rw [← hctx]
      rfl

theorem loop_isSome (fuel : ℕ) (r : FrameReader σ P F) (h : r.formatCtx.reads.length < fuel) :
    (r.loop avErrToStr fuel).isSome := by
  induction fuel generalizing r with
  | zero => exact absurd h (Nat.not_lt_zero _)
  | succ fuel ih =>
    rw [FrameReader.loop]
    split
    · rfl
    · rename_i r' hr
      have := iterate_none avErrToStr hr
      exact ih r' (by omega)

/-- **The loop returns.** A call of `ReadNextFrame` ends. -/
theorem readNextFrame_isSome (r : FrameReader σ P F) : (r.readNextFrame avErrToStr).isSome :=
  loop_isSome avErrToStr _ r (Nat.lt_succ_self _)

/-- a call of `ReadNextFrame`, one iteration at a time -/
theorem readNextFrame_iterate (r : FrameReader σ P F) :
    r.readNextFrame avErrToStr =
      match r.iterate avErrToStr with
      | (some result, r') => some (result, r')
      | (none, r') => r'.readNextFrame avErrToStr := by
  cases h : r.iterate avErrToStr with
  | mk out r' =>
    rw [FrameReader.readNextFrame, FrameReader.loop, h]
    cases out with
    | some result => rfl
    | none => simp only [FrameReader.readNextFrame, iterate_none avErrToStr h]

/-- repeated calls, one iteration at a time -/
theorem readsAll_iterate (r : FrameReader σ P F) (fs : List (Frame F)) :
    ReadsAll avErrToStr r fs ↔
      match r.iterate avErrToStr with
      | (none, r') => ReadsAll avErrToStr r' fs
      | (some (.ok none), _) => fs = []
      | (some (.ok (some f)), r') => ∃ fs', fs = f :: fs' ∧ ReadsAll avErrToStr r' fs'
      | (some (.error _), _) => False := by
  have hcall := readNextFrame_iterate avErrToStr r
  refine ⟨?_, ?_⟩
  · intro h
    rcases h with h | ⟨h, rest⟩
    · rw [hcall] at h
      split at h
      · cases h
        simp_all
      · rename_i heq
        rw [heq]
        exact .eof h
    · rw [hcall] at h
      split at h
      · cases h
        simp_all
      · rename_i heq
        rw [heq]
        exact .frame h rest
  · intro h
    split at h
    · rename_i r' heq
      rw [heq] at hcall
      rcases h with (h | ⟨h, rest⟩)
      · exact .eof (hcall.trans h)
      · exact .frame (hcall.trans h) rest
    · rename_i r' heq
      rw [heq] at hcall
      rw [h]
      exact .eof hcall
    · rename_i f r' heq
      rw [heq] at hcall
      obtain ⟨fs', rfl, hrest⟩ := h
      exact .frame hcall hrest
    · exact h.elim

/-! ## What is owed to each stream -/

/-- the packets of one stream -/
def packetsOf (i : ℕ) (ps : List (ℕ × P)) : List P := (ps.filter fun p => p.1 = i).map Prod.snd

/-- the frames tagged with one stream -/
def framesOf (i : ℕ) (fs : List (Frame F)) : List F :=
  (fs.filter fun f => decide (f.streamIndex = (i : ℤ))).map Frame.frame

/-- a reader in front of these packets and the end of the file -/
def readerAt (streams : List (AVStream σ P F)) (cs : List (Context σ P F)) (ps : List (ℕ × P)) : FrameReader σ P F :=
  ⟨⟨streams, ps.map fun p => .ok ⟨some p.2, p.1⟩⟩, cs⟩

/-- the frames the decoder of stream i is still to deliver, those it would release when flushed included -/
def owed (cs : List (Context σ P F)) (ps : List (ℕ × P)) (i : ℕ) : List F :=
  cs[i]?.elim [] fun c => c.pending (packetsOf i ps)

/-- the reading ends without an error, and each stream gets what it is owed -/
def Settles (streams : List (AVStream σ P F)) (cs : List (Context σ P F)) (ps : List (ℕ × P)) : Prop :=
  ∃ fs, ReadsAll avErrToStr (readerAt streams cs ps) fs ∧ ∀ i, framesOf i fs = owed cs ps i

/-- a decoder that receives one frame after each packet refuses no packet, and after the last one it can be flushed, if
it is that of the first stream, and has no frame left, neither undelivered nor held back, if it is another one's -/
def KeepsUp (first : Prop) : Context σ P F → List P → Prop
  | c, [] => (first → c.ready = true) ∧ (¬ first → c.pending [] = [])
  | c, p :: ps => c.ready = true ∧ KeepsUp first (c.take p).receive.2 ps

/-- there is a stream, and each decoder keeps up -/
def Lossless (cs : List (Context σ P F)) (ps : List (ℕ × P)) : Prop :=
  0 < cs.length ∧ ∀ i c, cs[i]? = some c → KeepsUp (i = 0) c (packetsOf i ps)

theorem packetsOf_self (i : ℕ) (p : P) (ps : List (ℕ × P)) : packetsOf i ((i, p) :: ps) = p :: packetsOf i ps := by
  simp [packetsOf]

theorem packetsOf_other {i j : ℕ} (h : j ≠ i) (p : P) (ps : List (ℕ × P)) :
    packetsOf i ((j, p) :: ps) = packetsOf i ps := by
  simp [packetsOf, h]

theorem framesOf_self (i : ℕ) (m : AVMediaType) (y : F) (fs : List (Frame F)) :
    framesOf i (⟨i, m, y⟩ :: fs) = y :: framesOf i fs := by
  simp [framesOf]

theorem framesOf_other {i j : ℕ} (h : j ≠ i) (m : AVMediaType) (y : F) (fs : List (Frame F)) :
    framesOf i (⟨j, m, y⟩ :: fs) = framesOf i fs := by
  simp [framesOf, h]

theorem framesOf_tagged_self (i : ℕ) (m : AVMediaType) (l : List F) :
    framesOf i (l.map fun y => ⟨i, m, y⟩) = l := by
  induction l with
  | nil => rfl
  | cons y l ih => rw [List.map_cons, framesOf_self, ih]

theorem framesOf_tagged_other {i j : ℕ} (h : j ≠ i) (m : AVMediaType) (l : List F) :
    framesOf i (l.map fun y => ⟨j, m, y⟩) = [] := by
  induction l with
  | nil => rfl
  | cons y l ih => rw [List.map_cons, framesOf_other h, ih]

/-- a packet of stream j moves the condition to the reader after it -/
theorem lossless_step {cs : List (Context σ P F)} {j : ℕ} {c : Context σ P F} (hc : cs[j]? = some c) (p : P)
    (ps : List (ℕ × P)) :
    Lossless cs ((j, p) :: ps) ↔ c.ready = true ∧ Lossless (cs.set j (c.take p).receive.2) ps := by
  obtain ⟨hj, -⟩ := List.getElem?_eq_some_iff.1 hc
  unfold Lossless
  rw [List.length_set]
  refine ⟨?_, ?_⟩
  · intro h
    rcases h with ⟨hpos, h⟩
    have hhere := h j c hc
    rw [packetsOf_self, KeepsUp] at hhere
    refine ⟨hhere.1, hpos, ?_⟩
    intro i c' hc'
    by_cases hij : j = i
    · subst hij
      rw [List.getElem?_set_self hj] at hc'
      cases hc'
      exact hhere.2
    · rw [List.getElem?_set_ne hij] at hc'
      have hthere := h i c' hc'
      rwa [packetsOf_other hij] at hthere
  · intro h
    rcases h with ⟨hready, hpos, h⟩
    refine ⟨hpos, ?_⟩
    intro i c' hc'
    by_cases hij : j = i
    · subst hij
      rw [hc] at hc'
      cases hc'
      rw [packetsOf_self, KeepsUp]
      exact ⟨hready, h j _ (List.getElem?_set_self hj)⟩
    · rw [packetsOf_other hij]
      exact h i c' (by rwa [List.getElem?_set_ne hij])

/-- what the other streams are owed does not move -/
theorem owed_other {cs : List (Context σ P F)} {i j : ℕ} (h : j ≠ i) (c : Context σ P F) (p : P) (ps : List (ℕ × P)) :
    owed (cs.set j c) ps i = owed cs ((j, p) :: ps) i := by
  rw [owed, owed, packetsOf_other h, List.getElem?_set_ne h]

/-- a reader that has flushed the first decoder returns its queue and then `nullptr` -/
theorem readsAll_drained {streams : List (AVStream σ P F)} {c : Context σ P F} {cs : List (Context σ P F)}
    (hd : c.draining = true) (fs : List (Frame F)) :
    ReadsAll avErrToStr (readerAt streams (c :: cs) []) fs ↔
      fs = c.queue.map fun y => ⟨(0 : ℕ), (readerAt streams (c :: cs) []).mediaType 0, y⟩ := by
  generalize hq : c.queue = q
  induction q generalizing c fs with
  | nil =>
    have hiter : (readerAt streams (c :: cs) []).iterate avErrToStr = _ :=
      feed_eof avErrToStr rfl (Or.inr (Context.send_draining hd none)) hd hq
    rw [readsAll_iterate, hiter]
    rfl
  | cons y q ih =>
    have hiter : (readerAt streams (c :: cs) []).iterate avErrToStr = _ :=
      feed_frame avErrToStr rfl (Or.inr (Context.send_draining hd none)) hq
    rw [readsAll_iterate, hiter, List.map_cons]
    have hrest := fun fs => @ih { c with queue := q } hd fs rfl
    refine ⟨?_, ?_⟩
    · intro h
      rcases h with ⟨fs', rfl, h⟩
      rw [(hrest fs').1 h]
      rfl
    · rintro rfl
      exact ⟨_, rfl, (hrest _).2 rfl⟩

/-- flushing the first decoder costs no call -/
theorem readsAll_flush {streams : List (AVStream σ P F)} {c : Context σ P F} {cs : List (Context σ P F)}
    (hd : c.draining = false) (hr : c.ready = true) (fs : List (Frame F)) :
    ReadsAll avErrToStr (readerAt streams (c :: cs) []) fs ↔
      ReadsAll avErrToStr (readerAt streams (c.drain :: cs) []) fs := by
  have hnow : (readerAt streams (c :: cs) []).iterate avErrToStr = _ :=
    feed_sent avErrToStr rfl (Or.inl (Context.send_ready hd hr none))
  have hlater : (readerAt streams (c.drain :: cs) []).iterate avErrToStr = _ :=
    feed_sent avErrToStr rfl (Or.inr (Context.send_draining (c := c.drain) rfl none))
  rw [readsAll_iterate, readsAll_iterate, hnow, hlater]
  rfl

/-- an iteration that fails settles nothing -/
theorem not_settles {streams : List (AVStream σ P F)} {cs : List (Context σ P F)} {ps : List (ℕ × P)} {status : Status}
    {r' : FrameReader σ P F} (h : (readerAt streams cs ps).iterate avErrToStr = (some (.error status), r')) :
    ¬ Settles avErrToStr streams cs ps := by
  intro hsettles
  rcases hsettles with ⟨fs, hfs, -⟩
  rw [readsAll_iterate, h] at hfs
  exact hfs

/-- at the end of the file: the first decoder can be flushed, and the others have nothing left -/
theorem settles_end (streams : List (AVStream σ P F)) (cs : List (Context σ P F)) (hcs : ∀ c ∈ cs, c.draining = false) :
    Settles avErrToStr streams cs [] ↔ Lossless cs [] := by
  cases cs with
  | nil =>
    obtain ⟨status, h⟩ := feed_no_streams avErrToStr (r := readerAt streams [] []) rfl AVPacket.blank
    exact iff_of_false (not_settles avErrToStr h) fun h => absurd h.1 (lt_irrefl 0)
  | cons c cs =>
    have hd : c.draining = false := hcs c List.mem_cons_self
    cases hr : c.ready with
    | false =>
      obtain ⟨status, r', h⟩ := feed_refused avErrToStr (r := readerAt streams (c :: cs) []) (i := 0) rfl hd hr none
      refine iff_of_false (not_settles avErrToStr h) ?_
      intro hl
      have hready := (hl.2 0 c rfl).1 rfl
      rw [hr] at hready
      cases hready
    | true =>
      unfold Settles Lossless
      simp only [readsAll_flush avErrToStr hd hr, readsAll_drained avErrToStr (c := c.drain) rfl,
        Context.pending_drain hd, exists_eq_left]
      refine ⟨?_, ?_⟩
      · intro h
        refine ⟨Nat.succ_pos _, fun i c' hc' => ⟨?_, ?_⟩⟩
        · intro hi
          subst hi
          cases hc'
          exact hr
        · intro hi
          have hi' := h i
          rw [framesOf_tagged_other (Ne.symm hi), owed, hc'] at hi'
          exact hi'.symm
      · rintro ⟨-, h⟩ i
        by_cases hi : i = 0
        · subst hi
          exact framesOf_tagged_self _ _ _
        · rw [framesOf_tagged_other (Ne.symm hi), owed]
          cases hc' : (c :: cs)[i]? with
          | none => rfl
          | some c' => exact ((h i c' hc').2 hi).symm

/-- one packet: its decoder takes it or refuses it, and then delivers one frame or none -/
theorem settles_step (streams : List (AVStream σ P F)) {cs : List (Context σ P F)} {j : ℕ} {c : Context σ P F}
    (hc : cs[j]? = some c) (hd : c.draining = false) (p : P) (ps : List (ℕ × P)) :
    Settles avErrToStr streams cs ((j, p) :: ps) ↔
      c.ready = true ∧ Settles avErrToStr streams (cs.set j (c.take p).receive.2) ps := by
  obtain ⟨hj, -⟩ := List.getElem?_eq_some_iff.1 hc
  have hother : ∀ i, j ≠ i → owed (cs.set j (c.take p).receive.2) ps i = owed cs ((j, p) :: ps) i :=
    fun i hij => owed_other hij _ p ps
  have hbefore : owed cs ((j, p) :: ps) j = (c.take p).pending (packetsOf j ps) := by
    rw [owed, hc, packetsOf_self, Context.pending_take hd]
    rfl
  have hafter : owed (cs.set j (c.take p).receive.2) ps j = (c.take p).receive.2.pending (packetsOf j ps) := by
    rw [owed, List.getElem?_set_self hj]
    rfl
  cases hr : c.ready with
  | false =>
    obtain ⟨status, r', h⟩ := feed_refused avErrToStr (r := readerAt streams cs ps) hc hd hr (some p)
    exact iff_of_false (not_settles avErrToStr h) fun h => by cases h.1
  | true =>
    rw [eq_self_iff_true, true_and]
    have hsends : Sends c (some p) (c.take p) := Or.inl (Context.send_ready hd hr (some p))
    unfold Settles
    cases hq : (c.take p).queue with
    | nil =>
      have hiter : (readerAt streams cs ((j, p) :: ps)).iterate avErrToStr =
          (none, readerAt streams (cs.set j (c.take p)) ps) :=
        feed_again avErrToStr (r := readerAt streams cs ps) hc hsends hd hq
      have hsame : (c.take p).receive.2 = c.take p := by rw [Context.receive_nil hq]
      simp only [readsAll_iterate avErrToStr (readerAt streams cs _), hiter]
      rw [hsame] at hother hafter ⊢
      apply exists_congr
      intro fs
      apply and_congr_right
      intro _
      apply forall_congr'
      intro i
      by_cases hij : j = i
      · subst hij
        rw [hbefore, hafter]
      · rw [hother i hij]
    | cons y q =>
      have hrecv : (c.take p).receive.2 = { c.take p with queue := q } := by rw [Context.receive_cons hq]
      have hiter : (readerAt streams cs ((j, p) :: ps)).iterate avErrToStr =
          (some (.ok (some ⟨j, (readerAt streams cs ps).mediaType j, y⟩)),
            readerAt streams (cs.set j (c.take p).receive.2) ps) := by
        rw [hrecv]
        exact feed_frame avErrToStr (r := readerAt streams cs ps) hc hsends hq
      have howed : ∀ i fs, framesOf i (⟨j, (readerAt streams cs ps).mediaType j, y⟩ :: fs) =
          owed cs ((j, p) :: ps) i ↔ framesOf i fs = owed (cs.set j (c.take p).receive.2) ps i := by
        intro i fs
        by_cases hij : j = i
        · subst hij
          rw [framesOf_self, hbefore, hafter, Context.pending_receive hq, List.cons.injEq, eq_self_iff_true, true_and]
        · rw [framesOf_other hij, hother i hij]
      simp only [readsAll_iterate avErrToStr (readerAt streams cs _), hiter]
      refine ⟨?_, ?_⟩
      · intro h
        rcases h with ⟨_, ⟨fs, rfl, hreads⟩, h⟩
        exact ⟨fs, hreads, fun i => (howed i fs).1 (h i)⟩
      · intro h
        rcases h with ⟨fs, hreads, h⟩
        exact ⟨_, ⟨fs, rfl, hreads⟩, fun i => (howed i fs).2 (h i)⟩

/-- **The reading settles every stream exactly when each decoder keeps up.** -/
theorem settles_iff (streams : List (AVStream σ P F)) (ps : List (ℕ × P)) (cs : List (Context σ P F))
    (hps : ∀ p ∈ ps, p.1 < cs.length) (hcs : ∀ c ∈ cs, c.draining = false) :
    Settles avErrToStr streams cs ps ↔ Lossless cs ps := by
  induction ps generalizing cs with
  | nil => exact settles_end avErrToStr streams cs hcs
  | cons jp ps ih =>
    obtain ⟨j, p⟩ := jp
    have hj : j < cs.length := hps (j, p) List.mem_cons_self
    have hd : cs[j].draining = false := hcs _ (List.getElem_mem hj)
    have hc : cs[j]? = some cs[j] := List.getElem?_eq_getElem hj
    rw [settles_step avErrToStr streams hc hd, lossless_step hc]
    apply and_congr_right
    intro _
    refine ih _ ?_ ?_
    · intro p' hp'
      rw [List.length_set]
      exact hps p' (List.mem_cons_of_mem _ hp')
    · intro c' hc'
      rcases List.mem_or_eq_of_mem_set hc' with hmem | rfl
      · exact hcs c' hmem
      · rw [Context.receive_draining, Context.take_draining, hd]

end Reader

/-! ## No frame lost -/

/-- an input file: its streams, and its packets in their order -/
structure Container (σ P F : Type) where
  streams : List (AVStream σ P F)
  packets : List (ℕ × P)
  inRange : ∀ p ∈ packets, p.1 < streams.length

/-- the reader `FrameReader::Create` makes: `GetCodecs` opens one decoder for each stream -/
def Container.create (container : Container σ P F) : FrameReader σ P F :=
  readerAt container.streams (container.streams.map fun stream => Context.start stream.decoder) container.packets

/-- every frame the decoder of stream i produces for its packets, those held back until flush included -/
def Container.produced (container : Container σ P F) (i : ℕ) : List F :=
  container.streams[i]?.elim [] fun stream =>
    stream.decoder.outputs stream.decoder.init (packetsOf i container.packets)

/-- calls of `ReadNextFrame` until `nullptr` return no error, and for each stream every frame of its decoder, once, in
order and tagged with its index -/
def LosesNoFrame (avErrToStr : Refusal → String) (container : Container σ P F) : Prop :=
  ∃ fs, ReadsAll avErrToStr container.create fs ∧ ∀ i, framesOf i fs = container.produced i

theorem owed_create (container : Container σ P F) (i : ℕ) :
    owed (container.streams.map fun stream => Context.start stream.decoder) container.packets i =
      container.produced i := by
  rw [owed, Container.produced, List.getElem?_map]
  cases container.streams[i]? with
  | none => rfl
  | some stream => exact Context.pending_start _ _

theorem losesNoFrame_iff_lossless (avErrToStr : Refusal → String) (container : Container σ P F) :
    LosesNoFrame avErrToStr container ↔
      Lossless (container.streams.map fun stream => Context.start stream.decoder) container.packets := by
  rw [← settles_iff avErrToStr container.streams]
  · simp only [LosesNoFrame, Settles, owed_create]
    rfl
  · simpa using container.inRange
  · intro c hc
    obtain ⟨stream, -, rfl⟩ := List.mem_map.1 hc
    rfl

/-- **No frame lost, exactly.** For every container and all decoders: the reader returns every frame of every stream
exactly when there is a stream, no decoder refuses a packet although one frame is received after each of its packets, the
first stream's decoder can be flushed, and every other stream's decoder has no frame left after its last packet. -/
theorem loses_no_frame_iff (avErrToStr : Refusal → String) (container : Container σ P F) :
    LosesNoFrame avErrToStr container ↔
      0 < container.streams.length ∧ ∀ i stream, container.streams[i]? = some stream →
        KeepsUp (i = 0) (Context.start stream.decoder) (packetsOf i container.packets) := by
  rw [losesNoFrame_iff_lossless, Lossless, List.length_map]
  apply and_congr_right
  intro _
  apply forall_congr'
  intro i
  rw [List.getElem?_map]
  cases container.streams[i]? with
  | none => simp
  | some stream => simp

/-! ## A frame lost -/

/-- a decoder that holds one frame back -/
def delayOne : Codec (Option ℕ) ℕ ℕ where
  init := none
  take held p := (some p, held.toList)
  flush held := held.toList
  busy _ _ := false

/-- a video stream and an audio stream, one packet each -/
def twoStreams : Container (Option ℕ) ℕ ℕ where
  streams := [⟨.video, delayOne⟩, ⟨.audio, delayOne⟩]
  packets := [(0, 10), (1, 20)]
  inRange := by decide

/-- **A frame lost.** The frame the second stream's decoder holds back is never asked for. -/
theorem second_stream_loses_frame :
    twoStreams.produced 1 = [20] ∧ ¬ LosesNoFrame (fun _ => "Unknown error") twoStreams := by
  refine ⟨rfl, ?_⟩
  intro h
  rw [losesNoFrame_iff_lossless] at h
  have hkeeps := h.2 1 (Context.start delayOne) rfl
  have hnothing := hkeeps.2.2 (by decide)
  exact absurd hnothing (by decide)

end Viduce.Engine
