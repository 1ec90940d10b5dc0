import Rpcpio.Client.CallState
import Rpcpio.Protocol.StreamQueue
import Rpcpio.Server.CallState

/-!
# Typed messages

The templates of the public headers, over messages that protobuf serializes and parses: what
`Channel` and `Server` make of the bytes of a call, the readers and writers of a stream, and
`StatusOr`, which has a value exactly when its status is OK. Protobuf is a parameter, `Codec`; what
the calls rely on is `Codec.Lawful`.
-/

set_option autoImplicit false

namespace Rpcpio.Typed

open Rpcpio.Library Rpcpio.Protocol Rpcpio.Client Rpcpio.Server

/-- `std::numeric_limits<int>::max()`. -/
def intMax : Nat := 2 ^ 31 - 1

/-- `static_cast<int>` of a size. -/
def toInt (n : Nat) : Int := Int.bmod n (2 ^ 32)

/-- A size that `int` holds is cast to itself. -/
theorem toInt_of_le {n : Nat} (h : n ≤ intMax) : toInt n = n := by
  have hlt : n ≤ 2147483647 := h
  have hmod : toInt n = Int.bmod n 4294967296 := rfl
  rw [hmod, Int.bmod]
  omega

/-! ## Protobuf -/

/-- The member functions of a protobuf message that are called. `SerializeToArray` fills a buffer of
the given size; `ParseFromArray` gets the size as an `int`. -/
structure Codec (μ : Type) where
  byteSizeLong : μ → Nat
  serializeToArray : μ → Nat → Option Bytes
  serializeToString : μ → Option Bytes
  parseFromArray : Bytes → Int → Option μ
  parseFromString : Bytes → Option μ

/-- What protobuf documents: a message that was serialized is parsed again, from a buffer or from a
string; the buffer is filled, and a string is not longer than `int` counts. -/
structure Codec.Lawful {μ : Type} (c : Codec μ) : Prop where
  length_array : ∀ m n b, c.serializeToArray m n = some b → b.length = n
  parse_array : ∀ m b, c.serializeToArray m (c.byteSizeLong m) = some b → b.length ≤ intMax →
    c.parseFromArray b b.length = some m
  length_string : ∀ m b, c.serializeToString m = some b → b.length ≤ intMax
  parse_string : ∀ m b, c.serializeToString m = some b → c.parseFromString b = some m
  parse_stringArray : ∀ m b, c.serializeToString m = some b →
    c.parseFromArray b b.length = some m

/-! ## Results -/

/-- `StatusOr`: a value, or the status without one. -/
structure StatusOr (α : Type) where
  value : Option α
  status : Status
  isOk_eq : status.isOk = value.isSome

namespace StatusOr

variable {α : Type}

/-- Construction from a value. -/
def ofValue (a : α) : StatusOr α := ⟨some a, Status.okStatus, rfl⟩

/-- `ok`. -/
def isOk (r : StatusOr α) : Bool := r.status.isOk

end StatusOr

/-- `UnaryResult`. -/
structure UnaryResult (β : Type) where
  status : Status
  response : Option β
  initialMetadata : MetadataMap
  trailingMetadata : MetadataMap

/-- `UnaryResult{status}`. -/
def UnaryResult.of {β : Type} (s : Status) : UnaryResult β := ⟨s, none, [], []⟩

def requestTooLong : Status :=
  Status.of .resourceExhausted (text "request serialization exceeds int range")

def requestNotSerialized : Status := Status.of .internal (text "request serialization failed")

def responseNotParsed : Status := Status.of .internal (text "response deserialization failed")

def responseMissing : Status := Status.of .internal (text "missing response message")

def requestNotParsed : Status := Status.of .invalidArgument (text "failed to parse request")

def responseTooLong : Status :=
  Status.of .resourceExhausted (text "response serialization exceeds int range")

def responseNotSerialized : Status := Status.of .internal (text "failed to serialize response")

/-! ## Unary calls -/

section

variable {α β : Type}

/-- The first half of `Channel::UnaryCall`: the request bytes, or the status of the result. -/
def requestBytes (c : Codec α) (req : α) : Except Status Bytes :=
  if intMax < c.byteSizeLong req then .error requestTooLong
  else
    match c.serializeToArray req (c.byteSizeLong req) with
    | none => .error requestNotSerialized
    | some bytes => .ok bytes

/-- The second half of `Channel::UnaryCall`: the typed result. -/
def typedResult (c : Codec β) (raw : UnaryResultRaw) : UnaryResult β :=
  let result : UnaryResult β := ⟨raw.status, none, raw.initialMetadata, raw.trailingMetadata⟩
  if raw.status.isOk && raw.hasResponse then
    match c.parseFromArray raw.responseBytes (toInt raw.responseBytes.length) with
    | none => { result with status := responseNotParsed }
    | some m => { result with response := some m }
  else if raw.status.isOk then { result with status := responseMissing }
  else result

/-- The end of the adapters with a single response: the status, and the response bytes. -/
def serializeResponse (c : Codec β) (result : StatusOr β) : HandlerResult :=
  match result.value with
  | none => ⟨some result.status, []⟩
  | some m =>
      if intMax < c.byteSizeLong m then ⟨some responseTooLong, []⟩
      else
        match c.serializeToArray m (c.byteSizeLong m) with
        -- the buffer has its size already
        | none => ⟨some responseNotSerialized, List.replicate (c.byteSizeLong m) 0⟩
        | some bytes => ⟨some Status.okStatus, bytes⟩

/-- The adapter of `Server::RegisterUnary`, for a handler that returns or throws. -/
def registerUnary (req : Codec α) (resp : Codec β) (h : α → Option (StatusOr β)) (bytes : Bytes) :
    HandlerResult :=
  match req.parseFromArray bytes (toInt bytes.length) with
  | none => ⟨some requestNotParsed, []⟩
  | some m =>
      match h m with
      | none => ⟨none, []⟩
      | some result => serializeResponse resp result

/-- Request bytes fit an `int`, and parse to the request. -/
theorem requestBytes_ok {c : Codec α} (hc : c.Lawful) {req : α} {bytes : Bytes}
    (h : requestBytes c req = .ok bytes) :
    bytes.length ≤ intMax ∧ bytes.length = c.byteSizeLong req ∧
      c.parseFromArray bytes (toInt bytes.length) = some req := by
  unfold requestBytes at h
  split at h
  · cases h
  · rename_i hle
    split at h
    · cases h
    · rename_i hser
      cases h
      have hlen := hc.length_array _ _ _ hser
      have hfits : bytes.length ≤ intMax := by omega
      refine ⟨hfits, hlen, ?_⟩
      rw [toInt_of_le hfits]
      exact hc.parse_array req bytes hser hfits

/-- The adapter on the bytes of a request. -/
theorem registerUnary_requestBytes {req : Codec α} (resp : Codec β) (hreq : req.Lawful)
    (h : α → Option (StatusOr β)) {m : α} {bytes : Bytes} (hm : requestBytes req m = .ok bytes) :
    registerUnary req resp h bytes =
      match h m with
      | none => ⟨none, []⟩
      | some result => serializeResponse resp result := by
  rw [registerUnary, (requestBytes_ok hreq hm).2.2]

end

/-! ## Streams -/

section

variable {α β : Type}

/-- `Write` of a typed writer: the bytes for the raw writer, or the status of a failure. -/
def writeBytes (c : Codec α) (failed : Status) (m : α) : Except Status Bytes :=
  match c.serializeToString m with
  | none => .error failed
  | some bytes => .ok bytes

/-- `Read` of a typed reader, on the result of the raw one. -/
def typedRead (c : Codec α) (failed : Status) (hfailed : failed.isOk = false) (r : PopResult) :
    StatusOr (Option α) :=
  if hs : r.status.isOk = false then ⟨none, r.status, hs⟩
  else
    match r.data with
    | none => .ofValue none
    | some bytes =>
        match c.parseFromString bytes with
        | none => ⟨none, failed, hfailed⟩
        | some m => .ofValue (some m)

/-- `ClientReader::Read`. -/
def clientReaderRead (c : Codec β) : PopResult → StatusOr (Option β) :=
  typedRead c (Status.of .internal (text "ClientReader: parse failed")) (by decide)

/-- `BidiStream::Read`. -/
def bidiStreamRead (c : Codec β) : PopResult → StatusOr (Option β) :=
  typedRead c (Status.of .internal (text "BidiStream::Read parse failed")) (by decide)

/-- `ServerReader::Read`. -/
def serverReaderRead (c : Codec α) : PopResult → StatusOr (Option α) :=
  typedRead c (Status.of .internal (text "ServerReader: parse failed")) (by decide)

/-- `ClientWriter::Write`, up to the raw writer. -/
def clientWriterWrite (c : Codec α) : α → Except Status Bytes :=
  writeBytes c (Status.of .internal (text "ClientWriter: serialization failed"))

/-- `BidiStream::Write`, up to the raw writer. -/
def bidiStreamWrite (c : Codec α) : α → Except Status Bytes :=
  writeBytes c (Status.of .internal (text "BidiStream::Write serialization failed"))

/-- `ServerWriter::Write`, up to the raw writer. -/
def serverWriterWrite (c : Codec β) : β → Except Status Bytes :=
  writeBytes c (Status.of .internal (text "ServerWriter: serialization failed"))

/-- The request of `Channel::ServerStreamingCall`, which is empty if the message is not serialized.
-/
def serverStreamingRequest (c : Codec α) (req : α) : Bytes := (c.serializeToString req).getD []

/-- The adapter of `Server::RegisterServerStreaming`: the message that the handler is called with,
or the status that is returned without a call. -/
def registerServerStreaming (c : Codec α) (bytes : Bytes) : Except Status α :=
  match c.parseFromArray bytes (toInt bytes.length) with
  | none => .error requestNotParsed
  | some m => .ok m

/-- The end of the adapter of `Server::RegisterClientStreaming`, for a handler that returns or
throws. -/
def registerClientStreaming (c : Codec β) : Option (StatusOr β) → HandlerResult
  | none => ⟨none, []⟩
  | some result =>
      match result.value with
      | none => ⟨some result.status, []⟩
      | some m =>
          match c.serializeToString m with
          | none => ⟨some responseNotSerialized, []⟩
          | some bytes => ⟨some Status.okStatus, bytes⟩

/-- What the adapter makes of the message of a caller: the message itself, or what no bytes parse
to if it was not serialized. -/
def requested (c : Codec α) (req : α) : Except Status α :=
  if (c.serializeToString req).isSome then .ok req else registerServerStreaming c []

/-- The request of a call fits an `int`, and the adapter gets the message from it. -/
theorem registerServerStreaming_request {c : Codec α} (hc : c.Lawful) (req : α) :
    (serverStreamingRequest c req).length ≤ intMax ∧
      registerServerStreaming c (serverStreamingRequest c req) = requested c req := by
  cases hs : c.serializeToString req with
  | none => simp [serverStreamingRequest, requested, hs, intMax]
  | some bytes =>
      have hle := hc.length_string req bytes hs
      refine ⟨by simpa [serverStreamingRequest, hs] using hle, ?_⟩
      simp [serverStreamingRequest, requested, hs, registerServerStreaming, toInt_of_le hle,
        hc.parse_stringArray req bytes hs]

/-- A rejected request has one status. -/
theorem requested_error {c : Codec α} {req : α} {s : Status} (h : requested c req = .error s) :
    s = requestNotParsed := by
  unfold requested registerServerStreaming at h
  split at h
  · cases h
  · split at h <;> cases h
    rfl

/-- What was written is read, by any reader. -/
theorem typedRead_writeBytes {c : Codec α} (hc : c.Lawful) {failed failed' : Status} {m : α}
    {bytes : Bytes} (hfailed' : failed'.isOk = false) (h : writeBytes c failed m = .ok bytes) :
    typedRead c failed' hfailed' (.message bytes) = .ofValue (some m) ∧ bytes.length ≤ intMax := by
  unfold writeBytes at h
  split at h
  · cases h
  · rename_i hser
    cases h
    refine ⟨?_, hc.length_string m bytes hser⟩
    simp [typedRead, PopResult.message, hc.parse_string m bytes hser]

end

end Rpcpio.Typed
