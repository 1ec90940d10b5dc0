import Rpcpio.Library.Executor
import Rpcpio.Protocol.Http2

/-!
# What all client calls share

The context members that a call reads, the statuses of the deadline, of a cancellation and of a
stream closed without trailers, and the content-type check of `Attach`.
-/

set_option autoImplicit false

namespace Rpcpio.Client

open Rpcpio.Library Rpcpio.Protocol

/-- A stream identifier. -/
abbrev StreamId := Int

/-- The members of `ClientContext` that a call reads. -/
structure ClientContext where
  hasDeadline : Bool
  maxRecvSize : Nat
  deriving DecidableEq, Repr

/-- The default limit, for a call without a context and in a new context. -/
def defaultMaxRecvSize : Nat := 4 * 1024 * 1024

/-- `ctx_ ? ctx_->max_receive_message_size() : 4 * 1024 * 1024`. -/
def maxReceiveMessageSize : Option ClientContext → Nat
  | some ctx => ctx.maxRecvSize
  | none => defaultMaxRecvSize

/-- `ArmTimer`: the timer of a call whose context has a deadline. -/
def armTimer (ctx : Option ClientContext) (timer : Timer) : Timer :=
  match ctx with
  | some ctx => if ctx.hasDeadline then timer.arm else timer
  | none => timer

/-- What a step of a call does that outlives it: it reads the context, calls the request handle,
publishes the outcome to the caller, or sees the session close the stream. -/
inductive Effect where
  | contextRead
  | request (r : RequestCall)
  | published (s : Status)
  | sessionClosed
  deriving DecidableEq, Repr

/-- The reads of the context made where the source guards them by `ctx`. -/
def contextReads (ctx : Option ClientContext) : List Effect :=
  if ctx.isSome then [.contextRead] else []

/-- Whether the header block announces gRPC. -/
def isGrpc (header : HeaderMap) : Bool :=
  match Multimap.find (text "content-type") header with
  | none => false
  | some v => v.value.tails.any fun t => (text "application/grpc").isPrefixOf t

/-- A gRPC response head. -/
def grpcHead : ResponseHead :=
  ⟨200, [(text "content-type", plain (text "application/grpc+proto"))]⟩

example : isGrpc grpcHead.header = true := by decide

/-- Trailers with status `OK`. -/
def okTrailers : HeaderMap := [(text "grpc-status", plain (text "0"))]

/-- A context with a deadline. -/
def deadlineContext : ClientContext := ⟨true, defaultMaxRecvSize⟩

/-- The status of the deadline timer. -/
def deadlineExceeded : Status := Status.of .deadlineExceeded (text "deadline exceeded")

/-- The status of `Cancel`. -/
def callCancelled : Status := Status.of .cancelled (text "call cancelled")

/-- The status of a stream closed without trailers. -/
def closeStatus (errorCode : Nat) : Status :=
  if errorCode = 0 then Status.of .unknown (text "missing grpc-status")
  else Status.of (http2ErrorCodeToStatusCode errorCode)
    (text "RST_STREAM error_code=" ++ decimal errorCode)

/-- `"server sent GOAWAY (last_stream_id=" + ... + ")"`. -/
def goawayStatus (lastStreamId : StreamId) : Status :=
  Status.of .unavailable
    (text "server sent GOAWAY (last_stream_id=" ++ decimalInt lastStreamId ++ text ")")

/-- The status of calls failed by `DoShutdown`. -/
def channelShutDown : Status := Status.of .cancelled (text "channel shut down")

theorem closeStatus_not_ok (errorCode : Nat) : (closeStatus errorCode).isOk = false := by
  simp only [closeStatus]
  split
  · rfl
  · simp [Status.isOk, Status.of, http2ErrorCodeToStatusCode_ne_ok]

end Rpcpio.Client
