import Rpcpio.Client.HttpFallback
import Rpcpio.Server.ResponseHeads

/-!
# Statuses from server to client

A status in the first header block of a response, from the place of the server that writes it to the
end of the client's call. The call states write it behind `AddCommonHeaders`, so `Attach` recognises
it; `HandleRequest` writes its own statuses without a content type, and the client falls back on the
HTTP status (`emitted_status_delivered`).
-/

set_option autoImplicit false

namespace Rpcpio.Stream

open Rpcpio.Library Rpcpio.Protocol Rpcpio.Client Rpcpio.Server

/-- The header blocks that a server writes in answer to a request: those of `HandleRequest` itself,
and those of a run of the call that it starts. -/
inductive Writes (z : Zlib) (srv : ServerImpl) (req : IncomingRequest) :
    Nat → HeaderMap → Prop
  | answered {code : Nat} {headers : HeaderMap}
      (h : srv.handleRequest req = .answered code headers) : Writes z srv req code headers
  | unary {code : Nat} {headers : HeaderMap} {c : ServerCallState} {es : List ServerCallEvent}
      {u : ServerCall} (h : srv.handleRequest req = .unary c)
      (hrun : (ServerCall.machine z).run (ServerCall.new c) (.start req.toRequest :: es) = some u)
      (hmem : ResponseEffect.call (.writeHead code headers) ∈ u.trace) :
      Writes z srv req code headers
  | serverStreaming {code : Nat} {headers : HeaderMap} {c : ServerStreamingCallState}
      {es : List ServerStreamingEvent} {u : ServerStreamingCall}
      (h : srv.handleRequest req = .serverStreaming c)
      (hrun : (ServerStreamingCall.machine z).run (ServerStreamingCall.new c)
        (.start req.toRequest :: es) = some u)
      (hmem : ResponseEffect.call (.writeHead code headers) ∈ u.trace) :
      Writes z srv req code headers
  | clientStreaming {code : Nat} {headers : HeaderMap} {c : ClientStreamingCallState}
      {es : List ClientStreamingEvent} {u : ClientStreamingCall}
      (h : srv.handleRequest req = .clientStreaming c)
      (hrun : (ClientStreamingCall.machine z).run (ClientStreamingCall.new c)
        (.start req.toRequest :: es) = some u)
      (hmem : ResponseEffect.call (.writeHead code headers) ∈ u.trace) :
      Writes z srv req code headers
  | bidi {code : Nat} {headers : HeaderMap} {c : BidiStreamingCallState}
      {es : List BidiStreamingEvent} {u : BidiStreamingCall}
      (h : srv.handleRequest req = .bidi c)
      (hrun : (BidiStreamingCall.machine z).run (BidiStreamingCall.new c)
        (.start req.toRequest :: es) = some u)
      (hmem : ResponseEffect.call (.writeHead code headers) ∈ u.trace) :
      Writes z srv req code headers

/-- The block carries the status `s`, written by `BuildTrailers` behind other headers. -/
def Carries (headers : HeaderMap) (s : Status) : Prop :=
  ∃ trailing out, headers = buildTrailers s trailing out ∧
    Multimap.find (text "grpc-status") out = none ∧
    Multimap.find (text "grpc-message") out = none ∧
    Multimap.find (text "grpc-status-details-bin") out = none

theorem Carries.extract {headers : HeaderMap} {s : Status} (h : Carries headers s) :
    extractTrailerStatus headers = s := by
  obtain ⟨trailing, out, rfl, hs, hm, hd⟩ := h
  exact extractTrailerStatus_buildTrailers s trailing hs hm hd

/-! ## What the blocks contain -/

section

variable {z : Zlib}

theorem carries_status (s : Status) (initial trailing : MetadataMap) :
    Carries (buildTrailers s trailing
      (metadataToNghttp2Headers initial (addCommonHeaders z []))) s := by
  refine ⟨trailing, _, rfl, ?_, ?_, ?_⟩ <;>
    exact find_common_eq_none (by decide) (by decide) (by decide) initial

/-- A block of a call state carries no status, or one that `Attach` recognises. -/
theorem headBlock_cases_status {headers : HeaderMap} (h : HeadBlock z headers) :
    Multimap.contains (text "grpc-status") headers = false ∨
      ∃ s, Carries headers s ∧ isGrpc headers = true ∧
        Multimap.find (text "grpc-encoding") headers = none := by
  cases h with
  | body initial =>
      left
      rw [Multimap.contains, find_common_eq_none (by decide) (by decide) (by decide)]
      rfl
  | status s initial trailing =>
      right
      refine ⟨s, carries_status s initial trailing, ?_, ?_⟩
      · rw [isGrpc, find_buildTrailers_of_ne (by decide) (by decide) (by decide) (by decide),
          find_common (by decide) (by decide)]
        decide
      · rw [find_buildTrailers_of_ne (by decide) (by decide) (by decide) (by decide)]
        exact find_common_eq_none (by decide) (by decide) (by decide) initial

/-- A status of `HandleRequest` comes without a content type. -/
theorem rejection_cases_status {code : Nat} {headers : HeaderMap}
    (h : ServerImpl.Rejection code headers) :
    Multimap.contains (text "grpc-status") headers = false ∨
      ∃ s, Carries headers s ∧ isGrpc headers = false ∧ code = 200 ∧ s.code ≠ .unknown := by
  cases h with
  | http => exact Or.inl rfl
  | status s hs =>
      right
      refine ⟨s, ⟨[], [], rfl, rfl, rfl, rfl⟩, ?_, rfl, hs⟩
      rw [isGrpc, find_buildTrailers_of_ne (by decide) (by decide) (by decide) (by decide)]
      rfl

/-- **A block is written by `HandleRequest` itself or, for an admitted request, by a call
state.** -/
theorem Writes.source {srv : ServerImpl} {req : IncomingRequest} {code : Nat}
    {headers : HeaderMap} (h : Writes z srv req code headers) :
    (¬ srv.Admits req ∧ ServerImpl.Rejection code headers) ∨
      (srv.Admits req ∧ code = 200 ∧ HeadBlock z headers) := by
  have hadmits : ∀ {k : Handling}, srv.handleRequest req = k →
      (∀ code headers, k ≠ .answered code headers) → srv.Admits req := by
    intro k hk hne
    apply ServerImpl.admits_of_handleRequest
    intro code headers
    rw [hk]
    exact hne code headers
  cases h with
  | answered h => exact Or.inl (ServerImpl.handleRequest_answered h)
  | unary h hrun hmem =>
      refine Or.inr ⟨hadmits h (by simp), ?_⟩
      exact Machine.run_invariant (M := ServerCall.machine z) (I := fun u => Headed z u.trace)
        (fun _ _ _ hu hst => ServerCall.headed_step hu hst) _ _ _ headed_nil hrun _ _ hmem
  | serverStreaming h hrun hmem =>
      refine Or.inr ⟨hadmits h (by simp), ?_⟩
      exact Machine.run_invariant (M := ServerStreamingCall.machine z)
        (I := fun u => Headed z u.trace)
        (fun _ _ _ hu hst => ServerStreamingCall.headed_step hu hst) _ _ _ headed_nil hrun _ _ hmem
  | clientStreaming h hrun hmem =>
      refine Or.inr ⟨hadmits h (by simp), ?_⟩
      exact Machine.run_invariant (M := ClientStreamingCall.machine z)
        (I := fun u => Headed z u.trace)
        (fun _ _ _ hu hst => ClientStreamingCall.headed_step hu hst) _ _ _ headed_nil hrun _ _ hmem
  | bidi h hrun hmem =>
      refine Or.inr ⟨hadmits h (by simp), ?_⟩
      exact Machine.run_invariant (M := BidiStreamingCall.machine z)
        (I := fun u => Headed z u.trace)
        (fun _ _ _ hu hst => BidiStreamingCall.headed_step hu hst) _ _ _ headed_nil hrun _ _ hmem

end

/-! ## The client's end -/

/-- The condition on a step of a unary client under which a status emitted for the request ends the
call: `Attach` finds the call open only if the server admitted the request, and nothing else
completes the open call with another status. -/
def UnaryStatusStands (z : Zlib) (srv : ServerImpl) (req : IncomingRequest) (s : Status)
    (u : UnaryCompletion) (e : UnaryEvent) : Prop :=
  u.call.completed = false →
    match e with
    | .attach _ => srv.Admits req
    | e => ∀ r, u.outcome z e = some r → r.status = s

/-- The same for a streaming client, where the close of the stream may overtake the posted
status. -/
def StreamingStatusStands (srv : ServerImpl) (req : IncomingRequest) (s : Status)
    (w : StreamingCall) (e : CallEvent) : Prop :=
  w.call.closed = false →
    match e with
    | .response _ => srv.Admits req
    | e => ∀ a ∈ w.closingStatus e, a = s

/-- How the header block of an emitted status meets the checks of `Attach`. -/
structure Emitted (srv : ServerImpl) (req : IncomingRequest) (code : Nat) (headers : HeaderMap)
    (s : Status) : Prop where
  carries : Carries headers s
  recognised : isGrpc headers = true ↔ srv.Admits req
  fallsBack : FallsBack ⟨code, headers⟩ ↔ ¬ srv.Admits req
  other : ¬ srv.Admits req → Status.fromHttpStatus code ≠ s
  encoding : srv.Admits req → Multimap.find (text "grpc-encoding") headers = none

/-- **Where an emitted status comes from decides whether `Attach` recognises it.** -/
theorem Writes.emitted {z : Zlib} {srv : ServerImpl} {req : IncomingRequest} {code : Nat}
    {headers : HeaderMap} (hw : Writes z srv req code headers)
    (hs : Multimap.contains (text "grpc-status") headers = true) :
    ∃ s, Emitted srv req code headers s := by
  rcases hw.source with ⟨hno, hr⟩ | ⟨hyes, rfl, hb⟩
  · rcases rejection_cases_status hr with hnone | ⟨s, hcarries, hgrpc, rfl, hcode⟩
    · rw [hnone] at hs
      cases hs
    · refine ⟨s, hcarries, by simp [hgrpc, hno], by simp [FallsBack, hgrpc, hno], ?_,
        fun h => absurd h hno⟩
      intro _ heq
      -- the HTTP status 200 maps to UNKNOWN, which the server never emits here
      exact hcode (heq ▸ by decide)
  · rcases headBlock_cases_status hb with hnone | ⟨s, hcarries, hgrpc, henc⟩
    · rw [hnone] at hs
      cases hs
    · exact ⟨s, hcarries, by simp [hgrpc, hyes], by simp [FallsBack, hgrpc, hyes],
        fun h => absurd hyes h, fun _ => henc⟩

theorem unaryStatusStands_iff {z : Zlib} {srv : ServerImpl} {req : IncomingRequest} {code : Nat}
    {headers : HeaderMap} {s : Status} (h : Emitted srv req code headers s) (u : UnaryCompletion)
    {e : UnaryEvent} (he : ∀ other, e = .attach other → other = ⟨code, headers⟩) :
    UnaryCompletion.HeaderStatusStands z s u e ↔ UnaryStatusStands z srv req s u e := by
  apply imp_congr_right
  intro _
  cases e with
  | attach other =>
      obtain rfl := he other rfl
      constructor
      · intro hstands
        by_contra hno
        exact h.other hno (hstands.1 (h.fallsBack.2 hno))
      · intro hyes
        constructor
        · intro hf
          exact absurd hyes (h.fallsBack.1 hf)
        · intro _ v hv
          rw [h.encoding hyes] at hv
          cases hv
  | _ => exact Iff.rfl

theorem streamingStatusStands_iff {srv : ServerImpl} {req : IncomingRequest} {code : Nat}
    {headers : HeaderMap} {s : Status} (h : Emitted srv req code headers s) (w : StreamingCall)
    {e : CallEvent} (he : ∀ other, e = .response other → other = ⟨code, headers⟩) :
    StreamingCall.HeaderStatusStands s w e ↔ StreamingStatusStands srv req s w e := by
  apply imp_congr_right
  intro _
  cases e with
  | response other =>
      obtain rfl := he other rfl
      constructor
      · intro hstands
        by_contra hno
        exact h.other hno (hstands (h.fallsBack.2 hno))
      · intro hyes hf
        exact absurd hyes (h.fallsBack.1 hf)
  | _ => exact Iff.rfl

/-- **Every emitted status is recognised exactly if the request was admitted.** The block carries
the content type that `Attach` accepts iff the server admitted the request, and a client of any kind
that gets the block ends with the emitted status iff, besides, nothing else ends its call. -/
theorem emitted_status_delivered {z : Zlib} {srv : ServerImpl} {req : IncomingRequest} {code : Nat}
    {headers : HeaderMap} (hw : Writes z srv req code headers)
    (hs : Multimap.contains (text "grpc-status") headers = true) :
    ∃ s, Carries headers s ∧ (isGrpc headers = true ↔ srv.Admits req) ∧
      (∀ (y : Zlib) (ctx : Option ClientContext) (es : List UnaryEvent) (u : UnaryCompletion),
        (UnaryCompletion.machine y).run (UnaryCompletion.new ctx) es = some u →
        UnaryEvent.attach ⟨code, headers⟩ ∈ es →
        (∀ other, UnaryEvent.attach other ∈ es → other = ⟨code, headers⟩) →
        ((u.ioc ++ u.invoked).map (·.status) = [s] ↔
          (UnaryCompletion.machine y).Along (UnaryStatusStands y srv req s)
            (UnaryCompletion.new ctx) es)) ∧
      ∀ (kind : CallKind) (ctx : Option ClientContext) (es : List CallEvent) (w : StreamingCall),
        StreamingCall.machine.run (StreamingCall.new (kind.callState ctx)) es = some w →
        CallEvent.response ⟨code, headers⟩ ∈ es →
        (StreamingCall.machine.Along (StreamingStatusStands srv req s)
            (StreamingCall.new (kind.callState ctx)) es → w.EndsWith s) ∧
        (w.strand = [] → w.ioc = [] → w.EndsWith s →
          StreamingCall.machine.Along (StreamingStatusStands srv req s)
            (StreamingCall.new (kind.callState ctx)) es) := by
  obtain ⟨s, hemitted⟩ := hw.emitted hs
  have hextract := hemitted.carries.extract
  refine ⟨s, hemitted.carries, hemitted.recognised, ?_, ?_⟩
  · intro y ctx es u hrun hmem honce
    -- the response that the server wrote is the one that comes
    have hends := @UnaryCompletion.ends_iff_headerStatusStands y ⟨code, headers⟩ hs ctx es u hrun
      hmem honce
    rw [hextract] at hends
    rw [hends]
    apply Machine.along_congr
    intro v e he
    exact unaryStatusStands_iff hemitted v fun other h => honce other (h ▸ he)
  · intro kind ctx es w hrun hmem
    -- a streaming call sees one response at most
    have hunique := (StreamingCall.response_unique hrun hmem).2
    have hends := StreamingCall.endsWith_iff_undisturbed
      (@endsAtHeaders_of_status ⟨code, headers⟩ hs) hmem hrun
    rw [hextract] at hends
    have hcongr : StreamingCall.machine.Along (StreamingCall.Undisturbed s)
        (StreamingCall.new (kind.callState ctx)) es ↔
        StreamingCall.machine.Along (StreamingStatusStands srv req s)
          (StreamingCall.new (kind.callState ctx)) es := by
      apply Machine.along_congr
      intro v e he
      rw [← StreamingCall.headerStatusStands_iff]
      exact streamingStatusStands_iff hemitted v fun other h => hunique other (h ▸ he)
    rwa [hcongr] at hends

/-- A server with one unary method. -/
def echoServer : ServerImpl := ⟨ServerOptions.default, false, [text "/svc/echo"], [], [], []⟩

/-- A request of that method; `te` says whether it has `te: trailers`. -/
def echoRequest (te : Bool) : IncomingRequest where
  header := (text "content-type", plain (text "application/grpc")) ::
    if te then [(text "te", plain (text "trailers"))] else []
  host := text "localhost"
  path := text "/svc/echo"
  method := text "POST"
  peerIdentity := []

/-- The reply to a request that ends before its message. -/
def incompleteHead : HeaderMap :=
  (errorReply Zlib.none (Status.of .invalidArgument (text "incomplete request message"))).head

/-- A unary client ends with the status of a request without a message. -/
theorem emitted_status_delivered_example :
    ∃ u, (UnaryCompletion.machine Zlib.none).run (UnaryCompletion.new none)
        [.attach ⟨200, incompleteHead⟩] = some u ∧
      (u.ioc ++ u.invoked).map (·.status) =
        [Status.of .invalidArgument (text "incomplete request message")] := by
  have hwrites : Writes Zlib.none echoServer (echoRequest true) 200 incompleteHead := by
    have hends : ((ServerCall.machine Zlib.none).run (ServerCall.new (ServerCallState.new
        (4 * 1024 * 1024) 8192 (4 * 1024 * 1024) []))
        [.start (echoRequest true).toRequest, .data []]).any
        (fun u => decide (ResponseEffect.call (.writeHead 200 incompleteHead) ∈ u.trace))
      = true := by
      decide
    obtain ⟨u, hu, hmem⟩ := (Option.any_eq_true _ _).1 hends
    exact .unary (by decide) hu (of_decide_eq_true hmem)
  obtain ⟨s, hcarries, _, hunary, _⟩ := emitted_status_delivered hwrites (by decide)
  have hs : s = Status.of .invalidArgument (text "incomplete request message") := by
    rw [← hcarries.extract]
    decide
  subst hs
  refine ⟨_, rfl, (hunary Zlib.none none [.attach ⟨200, incompleteHead⟩] _ rfl (by simp)
    (by simp)).2 ?_⟩
  exact ⟨fun _ => show echoServer.Admits (echoRequest true) by decide, fun _ _ => trivial⟩

/-- **A rejection without `te: trailers` is not recognised.** -/
theorem not_emitted_status_delivered :
    ¬ ∀ (z : Zlib) (srv : ServerImpl) (req : IncomingRequest) (code : Nat) (headers : HeaderMap),
        Writes z srv req code headers →
        Multimap.contains (text "grpc-status") headers = true →
        isGrpc headers = true ∧
          ∀ (y : Zlib) (u : UnaryCompletion), (UnaryCompletion.machine y).run
              (UnaryCompletion.new none) [.attach ⟨code, headers⟩] = some u →
            (u.ioc ++ u.invoked).map (·.status) = [extractTrailerStatus headers] := by
  intro h
  have hwrites : Writes Zlib.none echoServer (echoRequest false) 200
      (buildTrailers missingTe [] []) := .answered (by decide)
  exact absurd (h _ _ _ _ _ hwrites (by decide)).1 (by decide)

end Rpcpio.Stream
