import Rpcpio.Library.Executor
import Rpcpio.Protocol.Compression
import Rpcpio.Protocol.Framing
import Rpcpio.Protocol.Http2
import Rpcpio.Protocol.Metadata
import Rpcpio.Protocol.Timeout

/-!
# What all server calls share

The request and the context of a call, the header blocks that every call state writes, and the
replies: a header block, and a body or none. A reply is what `write_head` and `end` are called with,
always one after the other.
-/

set_option autoImplicit false

namespace Rpcpio.Server

open Rpcpio.Library Rpcpio.Protocol

/-- What a call reads of its request: `req_.header()` and `req_.uri().host`. -/
structure Request where
  header : HeaderMap
  host : Bytes
  deriving DecidableEq, Repr

/-- `ServerContext`, without the time of the deadline. -/
structure ServerContext where
  clientMetadata : MetadataMap
  authority : Bytes
  peerIdentity : Option Bytes
  hasDeadline : Bool
  initialMetadata : MetadataMap
  trailingMetadata : MetadataMap
  cancelled : Bool
  deriving DecidableEq, Repr

namespace ServerContext

/-- The constructor. -/
def new : ServerContext := ⟨[], [], none, false, [], [], false⟩

/-- `AddInitialMetadata` and `AddTrailingMetadata`; what throws leaves the context unchanged. -/
def addMetadata (ctx : ServerContext) (trailing : Bool) (key value : Bytes) : ServerContext :=
  if trailing then
    { ctx with
      trailingMetadata := (validateAndAdd ctx.trailingMetadata key value).getD
        ctx.trailingMetadata }
  else
    { ctx with
      initialMetadata := (validateAndAdd ctx.initialMetadata key value).getD ctx.initialMetadata }

/-- `trigger_cancel`, up to the handlers of the cancellation signal. -/
def triggerCancel (ctx : ServerContext) : ServerContext := { ctx with cancelled := true }

/-- The authority and the identity of the peer. -/
def setPeer (ctx : ServerContext) (req : Request) (peerIdentity : Bytes) : ServerContext :=
  { ctx with
    authority := req.host
    peerIdentity := if peerIdentity.isEmpty then ctx.peerIdentity else some peerIdentity }

end ServerContext

/-- The duration of a `grpc-timeout` header that arms the deadline timer. -/
def requestTimeout (req : Request) : Option Nat :=
  (Multimap.find (text "grpc-timeout") req.header).bind fun v =>
    (parseTimeout v.value).filter fun dur => 0 < dur

/-- The context and the timer after the `grpc-timeout` header. -/
def armDeadline (req : Request) (ctx : ServerContext) (timer : Timer) : ServerContext × Timer :=
  match requestTimeout req with
  | none => (ctx, timer)
  | some _ => ({ ctx with hasDeadline := true }, timer.arm)

/-- `AddCommonHeaders`. -/
def addCommonHeaders (z : Zlib) (hdrs : HeaderMap) : HeaderMap :=
  Multimap.emplace (text "grpc-accept-encoding") (plain (acceptEncodingValue z))
    (Multimap.emplace (text "content-type") (plain (text "application/grpc+proto")) hdrs)

/-- The reserved headers of a block before the status. -/
theorem find_common {z : Zlib} {k : Bytes} (hk : isReservedKey k = true)
    (ha : text "grpc-accept-encoding" ≠ k) (initial : MetadataMap) :
    Multimap.find k (metadataToNghttp2Headers initial (addCommonHeaders z [])) =
      if text "content-type" = k then some (plain (text "application/grpc+proto")) else none := by
  rw [find_metadataToNghttp2Headers hk, addCommonHeaders, Multimap.find_emplace_of_ne ha]
  simp [Multimap.emplace, Multimap.find]

/-- Only the content type and the accepted encodings are there. -/
theorem find_common_eq_none {z : Zlib} {k : Bytes} (hk : isReservedKey k = true)
    (ha : text "grpc-accept-encoding" ≠ k) (hc : text "content-type" ≠ k)
    (initial : MetadataMap) :
    Multimap.find k (metadataToNghttp2Headers initial (addCommonHeaders z [])) = none := by
  rw [find_common hk ha, if_neg hc]

/-- A status that is built on the header block of a response is read back. -/
theorem extractTrailerStatus_head (z : Zlib) (s : Status) (initial trailing : MetadataMap) :
    extractTrailerStatus (buildTrailers s trailing
      (metadataToNghttp2Headers initial (addCommonHeaders z []))) = s := by
  apply extractTrailerStatus_buildTrailers <;>
    exact find_common_eq_none (by decide) (by decide) (by decide) initial

/-- The header block of `SendHeaders`, before the messages of a streaming response. -/
def streamHead (z : Zlib) (ctx : ServerContext) : HeaderMap :=
  metadataToNghttp2Headers ctx.initialMetadata (addCommonHeaders z [])

/-- The body generator of a response with one message: the frame, the bytes emitted, the
trailers. -/
structure ResponseBody where
  frame : Bytes
  offset : Nat
  trailers : HeaderMap
  deriving DecidableEq, Repr

/-- The generator of `SendResponse`, for a buffer of `len` bytes. -/
def ResponseBody.generate (b : ResponseBody) (len : Nat) :
    ResponseBody × GeneratorResult × List ResponseCall :=
  let remaining := sizeSub b.frame.length b.offset
  if remaining = 0 then (b, .eof true, [.writeTrailer b.trailers])
  else
    let n := min remaining len
    ({ b with offset := b.offset + n }, .data ((b.frame.drop b.offset).take n), [])

/-- The generator at the end of its frame. -/
theorem ResponseBody.generate_end {b : ResponseBody} (h : b.offset = b.frame.length) (len : Nat) :
    b.generate len = (b, .eof true, [.writeTrailer b.trailers]) := by
  have hzero : sizeSub b.frame.length b.offset = 0 := by
    rw [sizeSub_of_le (Nat.le_of_eq h), h, Nat.sub_self]
  simp [generate, hzero]

/-- The generator before the end of its frame. -/
theorem ResponseBody.generate_bytes {b : ResponseBody} (h : b.offset < b.frame.length) (len : Nat) :
    b.generate len =
      ({ b with offset := b.offset + min (b.frame.length - b.offset) len },
        .data ((b.frame.drop b.offset).take (min (b.frame.length - b.offset) len)), []) := by
  have hsub : sizeSub b.frame.length b.offset = b.frame.length - b.offset :=
    sizeSub_of_le (Nat.le_of_lt h)
  rw [generate, hsub]
  exact if_neg (by omega)

/-- A reply: the header block, and the body if it is not trailers-only. -/
structure Reply where
  head : HeaderMap
  body : Option ResponseBody
  deriving DecidableEq, Repr

/-- The calls that send a reply. -/
def Reply.calls (r : Reply) : List ResponseCall :=
  [.writeHead 200 r.head, if r.body.isSome then .endWith else .endEmpty]

/-- The trailers-only reply of `SendError`. -/
def errorReply (z : Zlib) (s : Status) : Reply := ⟨buildTrailers s [] (addCommonHeaders z []), none⟩

/-- The status of the deadline timer. -/
def deadlineExceeded : Status := Status.of .deadlineExceeded (text "deadline exceeded")

/-- The status of a handler that threw. -/
def handlerThrew : Status := Status.of .internal (text "handler threw exception")

/-- The status of a response over the limit. -/
def responseTooLarge : Status :=
  Status.of .resourceExhausted (text "response message exceeds max_response_message_size")

/-- The status of a framing error of the decoder. -/
def requestFramingError (d : FrameDecoder) : Status :=
  Status.of (if d.limitExceeded then .resourceExhausted else .invalidArgument)
    (text "request framing error: " ++ d.errorMessage)

/-- How a handler with one response message ends: its status, or none if it threw, and the response
bytes. -/
structure HandlerResult where
  status : Option Status
  respBytes : Bytes
  deriving DecidableEq, Repr

/-- The status of a call whose handler has ended. -/
def handlerStatus (status : Option Status) : Status := status.getD handlerThrew

end Rpcpio.Server
