import Rpcpio.Client.ClientContext
import Rpcpio.Library.Outbox
import Rpcpio.Protocol.Framing
import Rpcpio.Protocol.StreamQueue

/-!
# The client's reader and writer handles

`RawClientReaderImpl` holds the decoded messages and the final status of a stream;
`RawClientWriterImpl` the frames to send, the single response of a client-streaming call and its
final status. `Enqueue` and `MarkWritesDone` post a closure to the strand; the closures are
`enqueueOnStrand` and `writesDoneOnStrand`. The generator drains the frames as `Library.Outbox`.
-/

set_option autoImplicit false

namespace Rpcpio.Client

open Rpcpio.Library Rpcpio.Protocol

/-- `RawClientReaderImpl`. -/
structure RawClientReaderImpl where
  msgQueue : StreamMessageQueue
  finalStatus : Status
  statusReady : Bool
  deriving DecidableEq, Repr

namespace RawClientReaderImpl

/-- The constructor. -/
def new : RawClientReaderImpl := ⟨StreamMessageQueue.new, Status.okStatus, false⟩

/-- `SetFinalStatus`. -/
def setFinalStatus (r : RawClientReaderImpl) (s : Status) : RawClientReaderImpl :=
  { r with finalStatus := s, statusReady := true }

/-- `RawClientReader::Read`, one pass of the queue's `Pop`: the result is forwarded. -/
def read (r : RawClientReaderImpl) : RawClientReaderImpl × Option PopResult :=
  ({ r with msgQueue := r.msgQueue.pop.1 }, r.msgQueue.pop.2)

/-- `RawClientReader::Finish`, one pass of its polling loop. -/
def finish (r : RawClientReaderImpl) : Option Status :=
  if r.statusReady then some r.finalStatus else none

end RawClientReaderImpl

/-- `RawClientWriterImpl`; `req` is the stream of the request that `req_` points to. -/
structure RawClientWriterImpl where
  req : Option StreamId
  pending : List Bytes
  offset : Nat
  writesDone : Bool
  responseBytes : Bytes
  hasResponse : Bool
  finalStatus : Status
  statusReady : Bool
  deriving DecidableEq, Repr

namespace RawClientWriterImpl

/-- The constructor. -/
def new : RawClientWriterImpl := ⟨none, [], 0, false, [], false, Status.okStatus, false⟩

/-- `SetFinalStatus`. -/
def setFinalStatus (w : RawClientWriterImpl) (s : Status) : RawClientWriterImpl :=
  { w with finalStatus := s, statusReady := true }

/-- `RawClientWriter::Finish`, one pass of its polling loop. -/
def finish (w : RawClientWriterImpl) : Option Status :=
  if w.statusReady then some w.finalStatus else none

/-- `Enqueue`, on the caller: the status, and the frame of the closure that is posted. -/
def enqueue (protoBytes : Bytes) : Status × Option Bytes :=
  match encodeFrame 0 protoBytes with
  | none => (Status.of .resourceExhausted (text "message too large"), none)
  | some frame => (Status.okStatus, some frame)

/-- `if (self->req_) self->req_->resume()`. -/
def wake (w : RawClientWriterImpl) : List RequestCall := if w.req.isSome then [.resume] else []

/-- The closure posted by `Enqueue`. -/
def enqueueOnStrand (w : RawClientWriterImpl) (frame : Bytes) :
    RawClientWriterImpl × List RequestCall :=
  let w := { w with pending := w.pending ++ [frame] }
  (w, w.wake)

/-- The closure posted by `MarkWritesDone`. -/
def writesDoneOnStrand (w : RawClientWriterImpl) : RawClientWriterImpl × List RequestCall :=
  let w := { w with writesDone := true }
  (w, w.wake)

/-- `ClientWriterGenerator`, for a buffer of `len` bytes. -/
def clientWriterGenerator (w : RawClientWriterImpl) (len : Nat) :
    RawClientWriterImpl × GeneratorResult :=
  match w.pending with
  | [] => if w.writesDone then (w, .eof false) else (w, .deferred)
  | front :: rest =>
      let remaining := sizeSub front.length w.offset
      let n := min remaining len
      let bytes := (front.drop w.offset).take n
      let offset := w.offset + n
      if offset = front.length then ({ w with pending := rest, offset := 0 }, .data bytes)
      else ({ w with offset := offset }, .data bytes)

/-- The frames not yet emitted, as a queue of blocks. -/
def outbox (w : RawClientWriterImpl) : Outbox UInt8 := ⟨w.pending, w.offset⟩

theorem enqueue_ok {p : Bytes} (hp : p.length < 2 ^ 32) :
    enqueue p = (Status.okStatus, some (frameOf p)) := by
  rw [enqueue, encodeFrame_frameOf hp]

/-- The generator does not touch the final status. -/
@[simp] theorem finish_clientWriterGenerator (w : RawClientWriterImpl) (len : Nat) :
    (w.clientWriterGenerator len).1.finish = w.finish := by
  unfold clientWriterGenerator
  split
  · split <;> rfl
  · dsimp only
    split <;> rfl

/-- The generator does not touch the request. -/
@[simp] theorem req_clientWriterGenerator (w : RawClientWriterImpl) (len : Nat) :
    (w.clientWriterGenerator len).1.req = w.req := by
  unfold clientWriterGenerator
  split
  · split <;> rfl
  · dsimp only
    split <;> rfl

/-- On a nonempty queue the generator is `Outbox.drain`. -/
theorem clientWriterGenerator_drain {w : RawClientWriterImpl} (len : Nat)
    (hwf : w.outbox.WellFormed) (hne : w.pending ≠ []) :
    w.clientWriterGenerator len =
      ({ w with
          pending := (w.outbox.drain len).1.blocks
          offset := (w.outbox.drain len).1.offset },
        .data (w.outbox.drain len).2) := by
  cases hb : w.pending with
  | nil => exact absurd hb hne
  | cons front rest =>
      have hlt : w.offset < front.length := hwf.offset_lt front (by simp [outbox, hb])
      have hsub : sizeSub front.length w.offset = front.length - w.offset :=
        sizeSub_of_le (by omega)
      simp only [clientWriterGenerator, hb, outbox, Outbox.drain, hsub]
      split <;> rfl

end RawClientWriterImpl

end Rpcpio.Client
