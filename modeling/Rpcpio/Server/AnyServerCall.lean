import Rpcpio.Server.BidiStreamingCallState
import Rpcpio.Server.CallState

/-!
# A server call of any kind

The four machines of server calls under one type, for statements about every kind of call: what a
reachable call is, its context, its timer, and whether its response is finished. The writer of a
streaming response has no trailers until it is finished (`RawServerWriterImpl.Fresh`).
-/

set_option autoImplicit false

namespace Rpcpio.Server

open Rpcpio.Library Rpcpio.Protocol

/-- A call of one of the four call states. -/
inductive AnyServerCall where
  | unary (u : ServerCall)
  | clientStreaming (u : ClientStreamingCall)
  | serverStreaming (u : ServerStreamingCall)
  | bidi (u : BidiStreamingCall)
  deriving DecidableEq, Repr

namespace AnyServerCall

/-- Some run of its machine leads from a new call state to the call. -/
def Reachable (z : Zlib) : AnyServerCall → Prop
  | .unary u => ∃ maxRequest maxMetadata maxResponse peer,
      (ServerCall.machine z).Reaches
        (ServerCall.new (ServerCallState.new maxRequest maxMetadata maxResponse peer)) u
  | .clientStreaming u => ∃ maxMessage maxMetadata maxResponse peer,
      (ClientStreamingCall.machine z).Reaches (ClientStreamingCall.new
        (ClientStreamingCallState.new maxMessage maxMetadata maxResponse peer)) u
  | .serverStreaming u => ∃ maxRequest maxMetadata maxResponse peer,
      (ServerStreamingCall.machine z).Reaches (ServerStreamingCall.new
        (ServerStreamingCallState.new maxRequest maxMetadata maxResponse peer)) u
  | .bidi u => ∃ maxMessage maxMetadata maxResponse peer,
      (BidiStreamingCall.machine z).Reaches (BidiStreamingCall.new
        (BidiStreamingCallState.new maxMessage maxMetadata maxResponse peer)) u

/-- `ctx_`. -/
def ctx : AnyServerCall → ServerContext
  | .unary u => u.call.ctx
  | .clientStreaming u => u.call.ctx
  | .serverStreaming u => u.call.ctx
  | .bidi u => u.call.ctx

/-- `timer_`. -/
def timer : AnyServerCall → Timer
  | .unary u => u.call.timer
  | .clientStreaming u => u.call.timer
  | .serverStreaming u => u.call.timer
  | .bidi u => u.call.timer

/-- `closed_`. -/
def closed : AnyServerCall → Bool
  | .unary u => u.call.closed
  | .clientStreaming u => u.call.closed
  | .serverStreaming u => u.call.closed
  | .bidi u => u.call.closed

/-- The response is finished: it was sent as a whole, or the writer that the handler was given is
finished. A handler that returns finishes it. -/
def finished : AnyServerCall → Bool
  | .unary u => u.call.responded
  | .clientStreaming u => u.call.responded
  | .serverStreaming u => if u.spawned then u.call.writerImpl.finished else u.call.responded
  | .bidi u => if u.registered then u.call.writerImpl.finished else u.call.responded

end AnyServerCall

/-! ## The trailers of a writer -/

namespace RawServerWriterImpl

/-- There are no trailers before `Finish`. -/
def Fresh (w : RawServerWriterImpl) : Prop := w.finished = false → w.trailHdrs = []

theorem fresh_new (maxResponseSize : Nat) : (new maxResponseSize).Fresh := fun _ => rfl

/-- `Finish` leaves the writer finished. -/
@[simp] theorem finish_finished (w : RawServerWriterImpl) (s : Status) :
    (w.finish s).1.finished = true := by
  simp only [finish]
  split
  · assumption
  · rfl

theorem fresh_finish (w : RawServerWriterImpl) (s : Status) : (w.finish s).1.Fresh := by
  intro h
  rw [finish_finished] at h
  cases h

theorem Fresh.write {w : RawServerWriterImpl} (h : w.Fresh) (payload : Bytes) :
    (w.write payload).1.Fresh := by
  simp only [RawServerWriterImpl.write]
  split
  · exact h
  split
  · exact fresh_finish w _
  split
  · exact h
  · exact h

theorem Fresh.perform {w : RawServerWriterImpl} (h : w.Fresh) (c : WriterCall) :
    (w.perform c).1.Fresh := by
  cases c with
  | write payload => exact h.write payload
  | finish s => exact fresh_finish w s

theorem Fresh.performAll {w : RawServerWriterImpl} (h : w.Fresh) (cs : List WriterCall) :
    (w.performAll cs).1.Fresh := by
  induction cs generalizing w with
  | nil => exact h
  | cons c cs ih => exact ih (h.perform c)

@[simp] theorem generate_finished (w : RawServerWriterImpl) (len : Nat) :
    (w.generate len).1.finished = w.finished := by
  simp only [generate]
  split <;> split <;> rfl

@[simp] theorem generate_trailHdrs (w : RawServerWriterImpl) (len : Nat) :
    (w.generate len).1.trailHdrs = w.trailHdrs := by
  simp only [generate]
  split <;> split <;> rfl

theorem Fresh.generate {w : RawServerWriterImpl} (h : w.Fresh) (len : Nat) :
    (w.generate len).1.Fresh := by
  intro hf
  rw [generate_finished] at hf
  rw [generate_trailHdrs]
  exact h hf

end RawServerWriterImpl

end Rpcpio.Server
