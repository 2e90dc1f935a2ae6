/-
Codecs behind a send/receive interface. A codec takes inputs in and lets outputs out, later or several at a time; a blank
input releases all that it still holds. Nothing here names a program.

- `Codec`: what comes out for which inputs, and when the codec may refuse an input.
- `Context`: an open codec, with its outputs that have not been received.
- `pending`: the outputs still to come; sending keeps them, receiving takes the first (`pending_take`, `pending_drain`,
  `pending_receive`).
-/
import Mathlib.Tactic

namespace Viduce.SendReceive

variable {σ ι ο : Type}

/-- why a call gives nothing -/
inductive Refusal where
  | eagain
  | eof
  | other (code : ℤ)
deriving DecidableEq, Repr

structure Codec (σ ι ο : Type) where
  init : σ
  /-- takes an input in; the outputs it can release then -/
  take : σ → ι → σ × List ο
  /-- the outputs still held back -/
  flush : σ → List ο
  /-- whether it refuses an input while outputs are undelivered -/
  busy : σ → List ο → Bool

/-- all the outputs for a list of inputs and the blank input after it -/
def Codec.outputs (c : Codec σ ι ο) (s : σ) : List ι → List ο
  | [] => c.flush s
  | a :: l => (c.take s a).2 ++ c.outputs (c.take s a).1 l

/-- an open codec -/
structure Context (σ ι ο : Type) where
  codec : Codec σ ι ο
  state : σ
  /-- released and not received -/
  queue : List ο
  /-- the blank input has been sent -/
  draining : Bool

namespace Context

def start (codec : Codec σ ι ο) : Context σ ι ο := ⟨codec, codec.init, [], false⟩

/-- the next input is not refused -/
def ready (c : Context σ ι ο) : Bool := c.queue.isEmpty || !c.codec.busy c.state c.queue

def take (c : Context σ ι ο) (a : ι) : Context σ ι ο :=
  { c with state := (c.codec.take c.state a).1, queue := c.queue ++ (c.codec.take c.state a).2 }

def drain (c : Context σ ι ο) : Context σ ι ο :=
  { c with queue := c.queue ++ c.codec.flush c.state, draining := true }

/-- sends an input, or the blank input -/
def send (c : Context σ ι ο) (x : Option ι) : Except Refusal Unit × Context σ ι ο :=
  if c.draining then (.error .eof, c)
  else if c.ready then (.ok (), x.elim c.drain c.take)
  else (.error .eagain, c)

/-- receives an output -/
def receive (c : Context σ ι ο) : Except Refusal ο × Context σ ι ο :=
  match c.queue with
  | y :: q => (.ok y, { c with queue := q })
  | [] => (.error (if c.draining then .eof else .eagain), c)

/-- the outputs still to be received, if these inputs and then the blank one are still to be sent -/
def pending (c : Context σ ι ο) (l : List ι) : List ο :=
  c.queue ++ if c.draining then [] else c.codec.outputs c.state l

theorem pending_start (codec : Codec σ ι ο) (l : List ι) : (start codec).pending l = codec.outputs codec.init l := rfl

theorem send_refused {c : Context σ ι ο} (h : c.draining = false) (hr : c.ready = false) (x : Option ι) :
    c.send x = (.error .eagain, c) := by
  simp [send, h, hr]

theorem send_ready {c : Context σ ι ο} (h : c.draining = false) (hr : c.ready = true) (x : Option ι) :
    c.send x = (.ok (), x.elim c.drain c.take) := by
  simp [send, h, hr]

theorem send_draining {c : Context σ ι ο} (h : c.draining = true) (x : Option ι) : c.send x = (.error .eof, c) := by
  simp [send, h]

theorem receive_cons {c : Context σ ι ο} {y : ο} {q : List ο} (h : c.queue = y :: q) :
    c.receive = (.ok y, { c with queue := q }) := by
  simp [receive, h]

theorem receive_nil {c : Context σ ι ο} (h : c.queue = []) :
    c.receive = (.error (if c.draining then .eof else .eagain), c) := by
  simp [receive, h]

@[simp] theorem receive_draining (c : Context σ ι ο) : c.receive.2.draining = c.draining := by
  unfold receive
  split <;> rfl

@[simp] theorem take_draining (c : Context σ ι ο) (a : ι) : (c.take a).draining = c.draining := rfl

/-- taking an input in keeps the outputs to come -/
theorem pending_take {c : Context σ ι ο} (h : c.draining = false) (a : ι) (l : List ι) :
    (c.take a).pending l = c.pending (a :: l) := by
  simp [pending, take, h, Codec.outputs]

/-- the blank input releases them -/
theorem pending_drain {c : Context σ ι ο} (h : c.draining = false) : c.drain.queue = c.pending [] := by
  simp [pending, drain, h, Codec.outputs]

/-- receiving an output takes the first of them -/
theorem pending_receive {c : Context σ ι ο} {y : ο} {q : List ο} (h : c.queue = y :: q) (l : List ι) :
    c.pending l = y :: c.receive.2.pending l := by
  simp [pending, receive_cons h, h]

end Context

end Viduce.SendReceive
