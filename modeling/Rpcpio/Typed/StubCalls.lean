import Rpcpio.Compiler.StubDispatch
import Rpcpio.Typed.BidiStreams
import Rpcpio.Typed.ClientStreams
import Rpcpio.Typed.ServerStreams

/-!
# Calls through a generated stub

The layers put together: a member function of a stub submits a request for the path of its method;
the server on which the generated services are registered finds the member function of that name
and starts a call of its kind; and the call answers with what that member function does.
-/

set_option autoImplicit false

namespace Rpcpio.Typed

open Rpcpio.Library Rpcpio.Protocol Rpcpio.Client Rpcpio.Server Rpcpio.Stream Rpcpio.Compiler

/-- The server of a file: its generated services are registered, and it is running. -/
def fileServer (file : FileDescriptor) (opts : ServerOptions) : Registry :=
  registered opts (generateHeader file) (generateSource file)

/-- What a client announces is within the metadata limit of the server, and not compressed. -/
structure Admissible (ch : ChannelOrigin) (ctx : OutgoingContext) (opts : ServerOptions) :
    Prop where
  host : (47 : UInt8) ∉ ch.host
  metadata : totalSize ctx.sendMetadata + (10 + ch.userAgent.length) ≤ opts.maxMetadataSize
  encoding : ctx.compressionAlgorithm = text "identity"

section

variable {file : FileDescriptor} {svc : ServiceDescriptor} {m : MethodDescriptor}
  {opts : ServerOptions} {ch : ChannelOrigin} {ctx : OutgoingContext} {now : Int} {sub : Submission}
  {req : IncomingRequest} {z : Zlib}

/-- The first table with a path is the one of the member function that is bound to it. -/
theorem handlerKind_of_dispatch {r : Registry} {path : Bytes} {kind : HandlerKind}
    {handler : Bytes × Bytes} (h : r.dispatch path = some (kind, handler)) :
    handlerKind r.server path = some kind := by
  obtain ⟨kind', hkind, hrest⟩ := Option.bind_eq_some_iff.1 h
  obtain ⟨b, _, hb⟩ := Option.map_eq_some_iff.1 hrest
  rw [hkind, (Prod.mk.inj hb).1]

/-- The call state that `HandleRequest` creates for a kind. -/
def newCall (o : ServerOptions) (peerIdentity : Bytes) : HandlerKind → Handling
  | .unary => .unary (.new o.maxRequestMessageSize o.maxMetadataSize o.maxResponseMessageSize
      peerIdentity)
  | .serverStreaming => .serverStreaming (.new o.maxRequestMessageSize o.maxMetadataSize
      o.maxResponseMessageSize peerIdentity)
  | .clientStreaming => .clientStreaming (.new o.maxRequestMessageSize o.maxMetadataSize
      o.maxResponseMessageSize peerIdentity)
  | .bidi => .bidi (.new o.maxRequestMessageSize o.maxMetadataSize o.maxResponseMessageSize
      peerIdentity)

/-- `Start` goes on with the call. -/
def starts (z : Zlib) (req : Request) : Handling → Bool
  | .answered _ _ => false
  | .unary c => (c.start z req).2.2
  | .serverStreaming c => (c.start z req).2.2
  | .clientStreaming c => (c.start z req).2.2
  | .bidi c => (c.start z req).2.2

/-- `HandleRequest` answers, or creates a call state of its own. -/
theorem handleRequest_cases (srv : ServerImpl) (req : IncomingRequest) :
    (∃ status hdrs, srv.handleRequest req = .answered status hdrs) ∨
      ∃ kind, srv.handleRequest req = newCall srv.opts req.peerIdentity kind := by
  unfold ServerImpl.handleRequest
  dsimp only
  split
  · exact Or.inl ⟨_, _, rfl⟩
  split
  · exact Or.inl ⟨_, _, rfl⟩
  split
  · exact Or.inl ⟨_, _, rfl⟩
  split
  · exact Or.inl ⟨_, _, rfl⟩
  -- the tables, and a path that none of them has
  split
  · exact Or.inr ⟨.unary, rfl⟩
  split
  · exact Or.inr ⟨.serverStreaming, rfl⟩
  split
  · exact Or.inr ⟨.clientStreaming, rfl⟩
  split
  · exact Or.inr ⟨.bidi, rfl⟩
  · exact Or.inl ⟨_, _, rfl⟩

/-- A call that is admitted has a call state of its own, and `Start` goes on with it. -/
theorem starts_of_begun {srv : ServerImpl} {kind : HandlerKind} {server : ServerContext}
    {timer : Timer} {calls : List ResponseCall}
    (h : beginCall z req.toRequest (srv.handleRequest req) =
      some (kind, .admitted server timer calls)) :
    srv.handleRequest req = newCall srv.opts req.peerIdentity kind ∧
      starts z req.toRequest (newCall srv.opts req.peerIdentity kind) = true := by
  rcases handleRequest_cases srv req with ⟨status, hdrs, hreq⟩ | ⟨kind', hreq⟩
  · rw [hreq] at h
    cases h
  · rw [hreq] at h ⊢
    cases kind' with
    | unary | serverStreaming | clientStreaming | bidi =>
        simp only [newCall, beginCall, Option.some.injEq, Prod.mk.injEq] at h
        obtain ⟨rfl, h⟩ := h
        refine ⟨rfl, ?_⟩
        by_contra hreg
        simp only [newCall, starts] at hreg
        rw [if_neg hreg] at h
        cases h

/-- **A submitted call arrives at the member function of its method**, and is begun as a call of its
kind. -/
theorem stub_arrives (h : file.WellFormed) (hsvc : svc ∈ file.services) (hm : m ∈ svc.methods)
    (hok : Admissible ch ctx opts)
    (hsub : submitGenerator ch (methodPath svc m) (some ctx) now = .ok sub ∨
      ∃ reqBytes, submitMessage ch (methodPath svc m) (some ctx) now reqBytes = .ok sub)
    (hreq : Delivered sub req) (z : Zlib) :
    (fileServer file opts).dispatch req.path =
        some (m.kind, (svc.name ++ text "Service", m.name)) ∧
      (fileServer file opts).server.handleRequest req = newCall opts req.peerIdentity m.kind ∧
      starts z req.toRequest (newCall opts req.peerIdentity m.kind) = true ∧
      negotiated z req.header = none := by
  obtain ⟨hbuild, hmethod, huri⟩ := submission_headers hsub
  obtain ⟨scheme, hurl⟩ := hreq.url
  rw [huri] at hurl
  obtain ⟨_, hauthority, hpath⟩ := splitsUrl_requestUri hok.host ⟨_, rfl⟩ hurl
  have hheader : req.header = sub.headers :=
    hreq.header.trans (applicationEntries_build hbuild).2
  obtain ⟨hcontent, hte⟩ := headerContains_build hbuild
  have hdispatch : (fileServer file opts).dispatch req.path =
      some (m.kind, (svc.name ++ text "Service", m.name)) := by
    rw [hpath]
    exact (h.dispatches opts).served svc hsvc m hm
  obtain ⟨hopts, hup⟩ := Registry.server_registerUses (readHeader (generateHeader file)).1
    (readSource (generateSource file)) (Registry.empty opts)
  have hbegin : beginCall z req.toRequest ((fileServer file opts).server.handleRequest req) =
      some (m.kind, begin z (fileServer file opts).server.opts m.kind req.peerIdentity
        req.toRequest) :=
    beginCall_handleRequest hup (hreq.method.trans hmethod) (by rw [hheader]; exact hcontent)
      (by rw [hheader]; exact hte) (handlerKind_of_dispatch hdispatch)
  have hserver : (fileServer file opts).server.opts = opts := hopts
  have hann : begin z opts m.kind req.peerIdentity req.toRequest =
      announced z opts m.kind ch ctx now req.peerIdentity := begin_build hbuild hheader hauthority
  have hadmitted : announced z opts m.kind ch ctx now req.peerIdentity =
      .admitted (announcedContext ch ctx now req.peerIdentity)
        (if (announcedContext ch ctx now req.peerIdentity).hasDeadline then .armed else .idle)
        (openingCalls z m.kind (announcedContext ch ctx now req.peerIdentity)) := by
    rw [announced, if_neg (Nat.not_lt.2 hok.metadata), if_neg]
    rintro ⟨_, hne, _⟩
    exact hne hok.encoding
  rw [hserver, hann, hadmitted] at hbegin
  obtain ⟨hstate, hstarts⟩ := starts_of_begun hbegin
  rw [hserver] at hstate hstarts
  refine ⟨hdispatch, hstate, hstarts, ?_⟩
  rw [negotiated, show req.header = sub.headers from hheader, find_encoding_build hbuild,
    if_pos hok.encoding]
  rfl

/-- The frame of a submitted request is what is on its way to the server. -/
theorem submitMessage_frame {path reqBytes : Bytes} {ctx : Option OutgoingContext}
    (h : submitMessage ch path ctx now reqBytes = .ok sub) :
    sub.frame = some ((encodeFrame 0 reqBytes).getD []) := by
  unfold submitMessage at h
  split at h
  · cases h
  · split at h
    · cases h
    · rename_i frame hframe
      cases h
      rw [hframe]
      rfl

end

/-- **A call through a generated stub is a call of the service.** For a unary method of a file whose
generated services are registered on a server, a context within the limits of that server, and any
handler behind the member function: the request arrives at the member function of the method, and
in every state that the exchange can reach the caller has the outcome of that handler, or nothing
yet. -/
theorem stub_call {file : FileDescriptor} {svc : ServiceDescriptor} {m : MethodDescriptor}
    (h : file.WellFormed) (hsvc : svc ∈ file.services) (hm : m ∈ svc.methods)
    (hkind : m.kind = .unary) {opts : ServerOptions} {ch : ChannelOrigin} {ctx : OutgoingContext}
    (hok : Admissible ch ctx opts) {α β : Type} {creq : Codec α} {cresp : Codec β}
    (hreq : creq.Lawful) (hresp : cresp.Lawful) (handler : α → Option (StatusOr β)) {z : Zlib}
    {now : Int} {a : α} {bytes : Bytes} {sub : Submission} {req : IncomingRequest}
    {client : Option ClientContext} (hbytes : requestBytes creq a = .ok bytes)
    (hsub : submitMessage ch (methodPath svc m) (some ctx) now bytes = .ok sub)
    (hdel : Delivered sub req) (hsize : creq.byteSizeLong a ≤ opts.maxRequestMessageSize)
    (hreceive : ∀ result b, handler a = some result → result.value = some b →
      cresp.byteSizeLong b ≤ opts.maxResponseMessageSize →
      cresp.byteSizeLong b ≤ maxReceiveMessageSize client) :
    (fileServer file opts).dispatch req.path =
        some (.unary, (svc.name ++ text "Service", m.name)) ∧
      ∃ c, (fileServer file opts).server.handleRequest req = .unary c ∧
        sub.frame = some (startHandled z client c req.toRequest bytes
          (registerUnary creq cresp handler)).upstream ∧
        ∀ x, (handled z (registerUnary creq cresp handler)).Reaches (startHandled z client c
          req.toRequest bytes (registerUnary creq cresp handler)) x →
          Answered creq cresp z (registerUnary creq cresp handler) a
            (unaryOutcome cresp opts.maxResponseMessageSize (handler a)) x := by
  obtain ⟨hdispatch, hstate, hstart, henc⟩ := stub_arrives h hsvc hm hok
    (Or.inr ⟨bytes, hsub⟩) hdel z
  rw [hkind] at hdispatch hstate hstart
  exact ⟨hdispatch, _, hstate, submitMessage_frame hsub,
    answered_outcome hreq hresp handler hbytes hsize hstart henc hreceive⟩

/-- A plaintext channel to the server of `exampleFile`. -/
theorem exampleOrigin_admissible :
    Admissible exampleOrigin OutgoingContext.new ServerOptions.default :=
  ⟨by decide, by decide, rfl⟩

/-- The headers of a call without metadata and without a deadline. -/
def exampleHeaders : HeaderMap :=
  [(text "content-type", plain (text "application/grpc+proto")),
    (text "te", plain (text "trailers")), (text "user-agent", plain (text "rpcpio/0.1"))]

/-- A request of `CounterStub`, and as it arrives. -/
def exampleSubmission (path : Bytes) (frame : Option Bytes) : Submission :=
  ⟨text "POST", text "http://localhost:80" ++ path, frame, exampleHeaders⟩

def exampleRequest (path : Bytes) : IncomingRequest :=
  ⟨⟨exampleHeaders, text "localhost:80"⟩, path, text "POST", []⟩

theorem example_delivered {path : Bytes} (habsolute : ∃ rest, path = 47 :: rest)
    (hplain : ∀ c ∈ path, c ≠ 35 ∧ c ≠ 37 ∧ c ≠ 63) (frame : Option Bytes) :
    Delivered (exampleSubmission path frame) (exampleRequest path) where
  method := rfl
  header := by
    show exampleHeaders = Multimap.emplaceAll exampleHeaders []
    decide
  url := ⟨text "http", rfl, by decide, (by decide : (47 : UInt8) ∉ text "localhost:80"), habsolute,
    hplain⟩

/-- `CounterService::Get` negates the flag. -/
theorem stub_call_example :
    (fileServer exampleFile ServerOptions.default).dispatch (text "/demo.Counter/Get") =
        some (.unary, (counterService.name ++ text "Service", counterGet.name)) ∧
      ∃ c, (fileServer exampleFile ServerOptions.default).server.handleRequest
          (exampleRequest (text "/demo.Counter/Get")) = .unary c ∧
        some [0, 0, 0, 0, 0] = some (startHandled Zlib.none none c
          (exampleRequest (text "/demo.Counter/Get")).toRequest [] negate).upstream ∧
        ∀ x, (handled Zlib.none negate).Reaches (startHandled Zlib.none none c
            (exampleRequest (text "/demo.Counter/Get")).toRequest [] negate) x →
          Answered flagCodec flagCodec Zlib.none negate false (Status.okStatus, some true) x := by
  have hsub : submitMessage exampleOrigin (methodPath counterService counterGet)
      (some OutgoingContext.new) 0 [] =
        .ok (exampleSubmission (text "/demo.Counter/Get") (some [0, 0, 0, 0, 0])) := by
    decide +kernel
  have hreceive : ∀ (result : StatusOr Bool) b, some (.ofValue !false) = some result →
      result.value = some b →
      flagCodec.byteSizeLong b ≤ ServerOptions.default.maxResponseMessageSize →
      flagCodec.byteSizeLong b ≤ maxReceiveMessageSize none :=
    fun _ _ h hv _ => by cases h; cases hv; decide
  have hout : unaryOutcome flagCodec ServerOptions.default.maxResponseMessageSize
      (some (.ofValue !false)) = (Status.okStatus, some true) := by decide +kernel
  rw [← hout]
  have hcall := stub_call (z := Zlib.none) exampleFile_wellFormed List.mem_cons_self
    List.mem_cons_self rfl exampleOrigin_admissible flagCodec_lawful flagCodec_lawful
    (fun b => some (.ofValue !b)) rfl hsub
    (example_delivered ⟨_, rfl⟩ (plain_of_all (by decide)) _) (by decide) hreceive
  exact hcall

/-- **A server-streaming call through a generated stub.** The request arrives at the member function
of the method, and in every state that the call can reach the adapter has the message that was
passed, and the caller reads a prefix of what the handler has written, and then its status. -/
theorem stub_server_streaming {file : FileDescriptor} {svc : ServiceDescriptor}
    {m : MethodDescriptor} (h : file.WellFormed) (hsvc : svc ∈ file.services)
    (hm : m ∈ svc.methods) (hkind : m.kind = .serverStreaming) {opts : ServerOptions}
    {ch : ChannelOrigin} {ctx : OutgoingContext} (hok : Admissible ch ctx opts) {α β : Type}
    {creq : Codec α} {cresp : Codec β} (hreq : creq.Lawful) (hresp : cresp.Lawful) {z : Zlib}
    {now : Int} {a : α} {sub : Submission} {req : IncomingRequest}
    {client : Option ClientContext} {id : StreamId}
    (hsub : submitMessage ch (methodPath svc m) (some ctx) now (serverStreamingRequest creq a) =
      .ok sub)
    (hdel : Delivered sub req)
    (hsize : (serverStreamingRequest creq a).length ≤ opts.maxRequestMessageSize) :
    (fileServer file opts).dispatch req.path =
        some (.serverStreaming, (svc.name ++ text "Service", m.name)) ∧
      ∃ c, (fileServer file opts).server.handleRequest req = .serverStreaming c ∧
        sub.frame = some (ServerStreamingExchange.start z client id c req.toRequest
          (serverStreamingRequest creq a)).upstream ∧
        ∀ (es : List (TypedWatchEvent β)) (x : ServerStreamingExchange),
          (∀ m ∈ es.flatMap TypedWatch.answers, ∀ p, cresp.serializeToString m = some p →
            p.length ≤ opts.maxResponseMessageSize ∧ p.length ≤ maxReceiveMessageSize client) →
          (TypedWatch.machine creq cresp z).run (.start z client id c req.toRequest
            (serverStreamingRequest creq a)) es = some x →
          TypedWatch.TypedWatched creq cresp a es x ∧
            ServerStreamingExchange.Rests z (serverStreamingRequest creq a) x := by
  obtain ⟨hdispatch, hstate, hstart, _⟩ := stub_arrives h hsvc hm hok (Or.inr ⟨_, hsub⟩) hdel z
  rw [hkind] at hdispatch hstate hstart
  exact ⟨hdispatch, _, hstate, submitMessage_frame hsub,
    TypedWatch.watch_run hreq hresp hsize hstart⟩

/-- Whatever `CounterService::Watch` writes on the flag `true`. -/
theorem stub_server_streaming_example :
    (fileServer exampleFile ServerOptions.default).dispatch (text "/demo.Counter/Watch") =
        some (.serverStreaming, (counterService.name ++ text "Service", counterWatch.name)) ∧
      ∃ c, (fileServer exampleFile ServerOptions.default).server.handleRequest
          (exampleRequest (text "/demo.Counter/Watch")) = .serverStreaming c ∧
        ∀ (es : List (TypedWatchEvent Bool)) (x : ServerStreamingExchange),
          (TypedWatch.machine flagCodec flagCodec Zlib.none).run (.start Zlib.none none 1 c
            (exampleRequest (text "/demo.Counter/Watch")).toRequest [8, 1]) es = some x →
          TypedWatch.TypedWatched flagCodec flagCodec true es x := by
  have hsub : submitMessage exampleOrigin (methodPath counterService counterWatch)
      (some OutgoingContext.new) 0 (serverStreamingRequest flagCodec true) =
        .ok (exampleSubmission (text "/demo.Counter/Watch") (some [0, 0, 0, 0, 2, 8, 1])) := by
    decide +kernel
  obtain ⟨hdispatch, c, hstate, _, hrun⟩ := stub_server_streaming (z := Zlib.none)
    (m := counterWatch) exampleFile_wellFormed List.mem_cons_self (by decide) rfl
    exampleOrigin_admissible flagCodec_lawful flagCodec_lawful hsub
    (example_delivered ⟨_, rfl⟩ (plain_of_all (by decide)) _) (by decide)
  exact ⟨hdispatch, c, hstate, fun es x h => (hrun es x (fun m _ p hp =>
    ⟨(length_flagCodec m p hp).trans (by decide), (length_flagCodec m p hp).trans (by decide)⟩)
    h).1⟩

/-- **A client-streaming call through a generated stub.** The request arrives at the member function
of the method, and in every state that the call can reach the handler reads a prefix of what the
caller has written, and then its end, and `FinishAndGetResponse` gives the outcome of the handler's
result. -/
theorem stub_client_streaming {file : FileDescriptor} {svc : ServiceDescriptor}
    {m : MethodDescriptor} (h : file.WellFormed) (hsvc : svc ∈ file.services)
    (hm : m ∈ svc.methods) (hkind : m.kind = .clientStreaming) {opts : ServerOptions}
    {ch : ChannelOrigin} {ctx : OutgoingContext} (hok : Admissible ch ctx opts) {α β : Type}
    {creq : Codec α} {cresp : Codec β} (hreq : creq.Lawful) (hresp : cresp.Lawful) {z : Zlib}
    {now : Int} {sub : Submission} {req : IncomingRequest} {client : Option ClientContext}
    {id : StreamId} (hsub : submitGenerator ch (methodPath svc m) (some ctx) now = .ok sub)
    (hdel : Delivered sub req) :
    (fileServer file opts).dispatch req.path =
        some (.clientStreaming, (svc.name ++ text "Service", m.name)) ∧
      ∃ c, (fileServer file opts).server.handleRequest req = .clientStreaming c ∧
        ∀ (es : List (TypedCollectEvent α β)) (x : ClientStreamingExchange),
          (∀ m ∈ es.flatMap TypedCollect.sends, ∀ p, creq.serializeToString m = some p →
            p.length ≤ opts.maxRequestMessageSize) →
          (∀ result m p, some result ∈ es.flatMap TypedCollect.returns → result.value = some m →
            cresp.serializeToString m = some p → p.length ≤ opts.maxResponseMessageSize →
              p.length ≤ maxReceiveMessageSize client) →
          (TypedCollect.machine creq cresp z).run (.start z client id c req.toRequest) es =
            some x →
          TypedCollect.TypedCollected creq cresp z opts.maxResponseMessageSize es x := by
  obtain ⟨hdispatch, hstate, hstart, _⟩ := stub_arrives h hsvc hm hok (Or.inl hsub) hdel z
  rw [hkind] at hdispatch hstate hstart
  exact ⟨hdispatch, _, hstate, TypedCollect.collect_run hreq hresp hstart⟩

/-- Whatever the caller of `CounterStub::Add` writes and `CounterService::Add` returns. -/
theorem stub_client_streaming_example :
    (fileServer exampleFile ServerOptions.default).dispatch (text "/demo.Counter/Add") =
        some (.clientStreaming, (counterService.name ++ text "Service", counterAdd.name)) ∧
      ∃ c, (fileServer exampleFile ServerOptions.default).server.handleRequest
          (exampleRequest (text "/demo.Counter/Add")) = .clientStreaming c ∧
        ∀ (es : List (TypedCollectEvent Bool Bool)) (x : ClientStreamingExchange),
          (TypedCollect.machine flagCodec flagCodec Zlib.none).run (.start Zlib.none none 1 c
            (exampleRequest (text "/demo.Counter/Add")).toRequest) es = some x →
          TypedCollect.TypedCollected flagCodec flagCodec Zlib.none
            ServerOptions.default.maxResponseMessageSize es x := by
  have hsub : submitGenerator exampleOrigin (methodPath counterService counterAdd)
      (some OutgoingContext.new) 0 =
        .ok (exampleSubmission (text "/demo.Counter/Add") none) := by decide +kernel
  obtain ⟨hdispatch, c, hstate, hrun⟩ := stub_client_streaming (z := Zlib.none) (m := counterAdd)
    exampleFile_wellFormed List.mem_cons_self (by decide) rfl exampleOrigin_admissible
    flagCodec_lawful flagCodec_lawful hsub (example_delivered ⟨_, rfl⟩ (plain_of_all (by decide)) _)
  refine ⟨hdispatch, c, hstate, fun es x h => hrun es x ?_ ?_ h⟩
  · exact fun m _ p hp => (length_flagCodec m p hp).trans (by decide)
  · exact fun _ m p _ _ hp _ => (length_flagCodec m p hp).trans (by decide)

/-- **A dialogue through a generated stub.** For a bidirectional method: the request arrives at the
member function of the method, and in every state that the call can reach each end reads a prefix
of the messages that the other has sent, and then the end. -/
theorem stub_dialogue {file : FileDescriptor} {svc : ServiceDescriptor} {m : MethodDescriptor}
    (h : file.WellFormed) (hsvc : svc ∈ file.services) (hm : m ∈ svc.methods)
    (hkind : m.kind = .bidi) {opts : ServerOptions} {ch : ChannelOrigin} {ctx : OutgoingContext}
    (hok : Admissible ch ctx opts) {α β : Type} {creq : Codec α} {cresp : Codec β}
    (hreq : creq.Lawful) (hresp : cresp.Lawful) {z : Zlib} {now : Int} {sub : Submission}
    {req : IncomingRequest} {client : Option ClientContext} {id : StreamId}
    (hsub : submitGenerator ch (methodPath svc m) (some ctx) now = .ok sub)
    (hdel : Delivered sub req) :
    (fileServer file opts).dispatch req.path = some (.bidi, (svc.name ++ text "Service", m.name)) ∧
      ∃ c, (fileServer file opts).server.handleRequest req = .bidi c ∧
        ∀ (es : List (TypedDuplexEvent α β)) (x : Duplex),
          (∀ m ∈ es.flatMap TypedDuplex.sends, ∀ p, creq.serializeToString m = some p →
            p.length ≤ opts.maxRequestMessageSize) →
          (∀ m ∈ es.flatMap TypedDuplex.answers, ∀ p, cresp.serializeToString m = some p →
            p.length ≤ opts.maxResponseMessageSize ∧ p.length ≤ maxReceiveMessageSize client) →
          (TypedDuplex.machine creq cresp z).run (.start z client id c req.toRequest) es =
            some x →
          TypedDuplex.TypedExchanged creq cresp es x := by
  obtain ⟨hdispatch, hstate, hstart, _⟩ := stub_arrives h hsvc hm hok (Or.inl hsub) hdel z
  rw [hkind] at hdispatch hstate hstart
  exact ⟨hdispatch, _, hstate, TypedDuplex.dialogue_run hreq hresp hstart⟩

/-- Whatever the two ends of `CounterStub::Talk` say. -/
theorem stub_dialogue_example :
    (fileServer exampleFile ServerOptions.default).dispatch (text "/demo.Counter/Talk") =
        some (.bidi, (counterService.name ++ text "Service", counterTalk.name)) ∧
      ∃ c, (fileServer exampleFile ServerOptions.default).server.handleRequest
          (exampleRequest (text "/demo.Counter/Talk")) = .bidi c ∧
        ∀ (es : List (TypedDuplexEvent Bool Bool)) (x : Duplex),
          (TypedDuplex.machine flagCodec flagCodec Zlib.none).run (.start Zlib.none none 1 c
            (exampleRequest (text "/demo.Counter/Talk")).toRequest) es = some x →
          TypedDuplex.TypedExchanged flagCodec flagCodec es x := by
  have hsub : submitGenerator exampleOrigin (methodPath counterService counterTalk)
      (some OutgoingContext.new) 0 =
        .ok (exampleSubmission (text "/demo.Counter/Talk") none) := by decide +kernel
  obtain ⟨hdispatch, c, hstate, hrun⟩ := stub_dialogue (z := Zlib.none) (m := counterTalk)
    exampleFile_wellFormed List.mem_cons_self (by decide) rfl exampleOrigin_admissible
    flagCodec_lawful flagCodec_lawful hsub
    (example_delivered ⟨_, rfl⟩ (plain_of_all (by decide)) _)
  refine ⟨hdispatch, c, hstate, fun es x h => hrun es x ?_ ?_ h⟩
  · exact fun m _ p hp => (length_flagCodec m p hp).trans (by decide)
  · exact fun m _ p hp => ⟨(length_flagCodec m p hp).trans (by decide),
      (length_flagCodec m p hp).trans (by decide)⟩

end Rpcpio.Typed
