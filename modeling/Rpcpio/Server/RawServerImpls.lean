import Rpcpio.Library.Outbox
import Rpcpio.Protocol.Framing
import Rpcpio.Protocol.Http2
import Rpcpio.Protocol.StreamQueue

/-!
# The server's reader and writer handles

`RawServerWriterImpl` queues encoded frames for the body generator of a streaming response; the
generator drains them piecewise and ends the body with the trailing headers. The queue refines
`Library.Outbox`. `RawServerReaderImpl` is the message queue the handler reads.
-/

set_option autoImplicit false

namespace Rpcpio.Server

open Rpcpio.Library Rpcpio.Protocol

/-- `RawServerReaderImpl`. -/
structure RawServerReaderImpl where
  queue : StreamMessageQueue
  deriving DecidableEq, Repr

namespace RawServerReaderImpl

/-- The constructor. -/
def new : RawServerReaderImpl := ⟨StreamMessageQueue.new⟩

/-- `RawServerReader::Read`, one pass of the queue's `Pop`: the result is forwarded. -/
def read (r : RawServerReaderImpl) : RawServerReaderImpl × Option PopResult :=
  (⟨r.queue.pop.1⟩, r.queue.pop.2)

end RawServerReaderImpl

/-- `RawServerWriterImpl`. -/
structure RawServerWriterImpl where
  maxResponseSize : Nat
  pending : List Bytes
  offset : Nat
  finished : Bool
  trailHdrs : HeaderMap
  deriving DecidableEq, Repr

namespace RawServerWriterImpl

/-- The constructor. -/
def new (maxResponseSize : Nat) : RawServerWriterImpl := ⟨maxResponseSize, [], 0, false, []⟩

/-- `Finish`. -/
def finish (w : RawServerWriterImpl) (status : Status) :
    RawServerWriterImpl × List ResponseCall :=
  if w.finished then (w, [])
  else
    ({ w with finished := true, trailHdrs := buildTrailers status [] w.trailHdrs }, [.resume])

/-- `Write`. -/
def write (w : RawServerWriterImpl) (protoBytes : Bytes) :
    RawServerWriterImpl × Status × List ResponseCall :=
  if w.finished then
    (w, Status.of .internal (text "RawServerWriterImpl::Write called after Finish"), [])
  else if w.maxResponseSize < protoBytes.length then
    let s := Status.of .resourceExhausted
      (text "response message exceeds max_response_message_size")
    let r := w.finish s
    (r.1, s, r.2)
  else
    match encodeFrame 0 protoBytes with
    | none => (w, Status.of .resourceExhausted (text "message too large to frame"), [])
    | some frame => ({ w with pending := w.pending ++ [frame] }, Status.okStatus, [.resume])

/-- The body generator installed by `SendHeaders`, for a buffer of `len` bytes. -/
def generate (w : RawServerWriterImpl) (len : Nat) :
    RawServerWriterImpl × GeneratorResult × List ResponseCall :=
  match w.pending with
  | [] =>
      if w.finished then (w, .eof true, [.writeTrailer w.trailHdrs])
      else (w, .deferred, [])
  | front :: rest =>
      let remaining := sizeSub front.length w.offset
      let n := min remaining len
      let bytes := (front.drop w.offset).take n
      let offset := w.offset + n
      if offset = front.length then ({ w with pending := rest, offset := 0 }, .data bytes, [])
      else ({ w with offset := offset }, .data bytes, [])

/-- The frames not yet emitted, as a queue of blocks. -/
def outbox (w : RawServerWriterImpl) : Outbox UInt8 := ⟨w.pending, w.offset⟩

/-- A message within the limits is queued as its frame, and the generator is woken. -/
theorem write_ok {w : RawServerWriterImpl} {p : Bytes} (hfin : w.finished = false)
    (hmax : p.length ≤ w.maxResponseSize) (hlen : p.length < 2 ^ 32) :
    w.write p = ({ w with pending := w.pending ++ [frameOf p] }, Status.okStatus, [.resume]) := by
  rw [write, if_neg (by simp [hfin]), if_neg (Nat.not_lt.2 hmax), encodeFrame_frameOf hlen]

theorem finish_open {w : RawServerWriterImpl} (hfin : w.finished = false) (s : Status) :
    w.finish s =
      ({ w with finished := true, trailHdrs := buildTrailers s [] w.trailHdrs }, [.resume]) :=
  if_neg (by simp [hfin])

/-- On a nonempty queue the generator is `Outbox.drain`. -/
theorem generate_drain {w : RawServerWriterImpl} (len : Nat) (hwf : w.outbox.WellFormed)
    (hne : w.pending ≠ []) :
    w.generate len =
      ({ w with
          pending := (w.outbox.drain len).1.blocks
          offset := (w.outbox.drain len).1.offset },
        .data (w.outbox.drain len).2, []) := by
  cases hb : w.pending with
  | nil => exact absurd hb hne
  | cons front rest =>
      have hlt : w.offset < front.length := hwf.offset_lt front (by simp [outbox, hb])
      have hsub : sizeSub front.length w.offset = front.length - w.offset :=
        sizeSub_of_le (by omega)
      simp only [generate, hb, outbox, Outbox.drain, hsub]
      split <;> rfl

end RawServerWriterImpl

end Rpcpio.Server
