import Rpcpio.Server.RespondOnce
import Rpcpio.Server.ResponseMetadata

/-!
# The metadata that a handler adds

Initial metadata belong in the response headers, trailing metadata in the block that carries
`grpc-status`. Unary and client-streaming calls write both when the handler has returned; what a
server-streaming or bidirectional handler adds is not sent (`metadata_delivered_iff`).
-/

set_option autoImplicit false

namespace Rpcpio.Server

open Rpcpio.Library Rpcpio.Protocol

/-! ## What the client receives of the metadata -/

namespace AnyServerCall

/-- The trace of the call. -/
def trace : AnyServerCall → List ResponseEffect
  | .unary u => u.trace
  | .clientStreaming u => u.trace
  | .serverStreaming u => u.trace
  | .bidi u => u.trace

/-- The end of the `i`-th handler of the call, with the result `r`; a streaming handler has no
response bytes. -/
def handlerReturn (z : Zlib) (i : Nat) (r : HandlerResult) : AnyServerCall → Option AnyServerCall
  | .unary u => (u.step z (.handlerReturn i r)).map .unary
  | .clientStreaming u => (u.step z (.handlerReturn r)).map .clientStreaming
  | .serverStreaming u => (u.step z (.handlerReturn i r.status)).map .serverStreaming
  | .bidi u => (u.step z (.handlerReturn r.status)).map .bidi

/-- The handler may answer with the result `r`: the stream is open, and a call with one response
message is unanswered and its message within the limit. -/
def ReturnsNormally (r : HandlerResult) (s : AnyServerCall) : Prop :=
  s.closed = false ∧
    match s with
    | .unary u => u.call.responded = false ∧
        ((handlerStatus r.status).isOk = true → r.respBytes.length ≤ u.call.maxResponseSize)
    | .clientStreaming u => u.call.responded = false ∧
        ((handlerStatus r.status).isOk = true → r.respBytes.length ≤ u.call.maxResponseSize)
    | _ => True

/-- The block that carries `grpc-status`: the trailers of the body or of the finished writer, or the
head of a response without a body. -/
def StatusBlock (h : HeaderMap) : AnyServerCall → Prop
  | .unary u =>
      match u.body with
      | some b => h = b.trailers
      | none => .call (.writeHead 200 h) ∈ u.trace
  | .clientStreaming u =>
      match u.body with
      | some b => h = b.trailers
      | none => .call (.writeHead 200 h) ∈ u.trace
  | .serverStreaming u => u.call.writerImpl.finished = true ∧ h = u.call.writerImpl.trailHdrs
  | .bidi u => u.call.writerImpl.finished = true ∧ h = u.call.writerImpl.trailHdrs

/-- The initial metadata are in the response headers, and the trailing metadata in the block that
carries the status. -/
def MetadataDelivered (ctx : ServerContext) (s : AnyServerCall) : Prop :=
  (∃ h, .call (.writeHead 200 h) ∈ s.trace ∧ CarriesAll h ctx.initialMetadata) ∧
    ∃ h, s.StatusBlock h ∧ (Multimap.find (text "grpc-status") h).isSome = true ∧
      CarriesAll h ctx.trailingMetadata

/-- The kinds of calls that write their response when the handler has returned. -/
def AnswersLast : AnyServerCall → Prop
  | .unary _ => True
  | .clientStreaming _ => True
  | _ => False

end AnyServerCall

/-- The status of built trailers is found. -/
theorem find_status_isSome {out : HeaderMap}
    (h : Multimap.find (text "grpc-status") out = none) (s : Status) (m : MetadataMap) :
    (Multimap.find (text "grpc-status") (buildTrailers s m out)).isSome = true := by
  rw [find_status_buildTrailers h]
  rfl

/-- A reply that carries the metadata of the context. -/
structure Reply.Delivers (ctx : ServerContext) (r : Reply) : Prop where
  head : CarriesAll r.head ctx.initialMetadata
  status : (Multimap.find (text "grpc-status")
    ((r.body.map ResponseBody.trailers).getD r.head)).isSome = true
  trailing : CarriesAll ((r.body.map ResponseBody.trailers).getD r.head) ctx.trailingMetadata

/-- The trailers-only reply with a status and the metadata of the context. -/
theorem delivers_status (z : Zlib) {ctx : ServerContext} (hv : ctx.Validated) (s : Status) :
    Reply.Delivers ctx ⟨buildTrailers s ctx.trailingMetadata
      (metadataToNghttp2Headers ctx.initialMetadata (addCommonHeaders z [])), none⟩ where
  head := fun e he =>
    mem_buildTrailers_of_mem (carriesAll_metadataToNghttp2Headers hv.1 _ e he)
  status := find_status_isSome
    (find_common_eq_none (by decide) (by decide) (by decide) _) s _
  trailing := carriesAll_metadataToNghttp2Headers hv.2 _

/-- The reply with one message and the metadata of the context. -/
theorem delivers_body (z : Zlib) {ctx : ServerContext} (hv : ctx.Validated) (s : Status)
    (frame : Bytes) (offset : Nat) :
    Reply.Delivers ctx ⟨metadataToNghttp2Headers ctx.initialMetadata (addCommonHeaders z []),
      some ⟨frame, offset, buildTrailers s ctx.trailingMetadata []⟩⟩ where
  head := carriesAll_metadataToNghttp2Headers hv.1 _
  status := find_status_isSome rfl s _
  trailing := carriesAll_metadataToNghttp2Headers hv.2 _

/-- The reply of `SendResponse`, within the limit. -/
theorem ServerCallState.delivers_responseReply (z : Zlib) {c : ServerCallState}
    (hv : c.ctx.Validated) {s : Status} {respBytes : Bytes}
    (hsize : s.isOk = true → respBytes.length ≤ c.maxResponseSize) :
    Reply.Delivers c.ctx (c.responseReply z s respBytes) := by
  simp only [responseReply]
  split
  · exact delivers_status z hv s
  · rename_i hok
    rw [if_neg (Nat.not_lt.2 (hsize (by simpa using hok)))]
    exact delivers_body z hv s _ _

/-- The reply of `SendResponse`, within the limit. -/
theorem ClientStreamingCallState.delivers_handlerReturned (z : Zlib)
    {c : ClientStreamingCallState} (hv : c.ctx.Validated) {r : HandlerResult}
    (hr : c.responded = false)
    (hsize : (handlerStatus r.status).isOk = true → r.respBytes.length ≤ c.maxResponseSize) :
    ∃ reply, (c.handlerReturned z r).2 = some reply ∧ Reply.Delivers c.ctx reply := by
  simp only [handlerReturned, sendResponse, hr, Bool.false_eq_true, if_false]
  have hlimit : ¬ ((handlerStatus r.status).isOk && !r.respBytes.isEmpty &&
      c.maxResponseSize < r.respBytes.length) = true := by
    simp only [Bool.and_eq_true, decide_eq_true_eq, not_and, Nat.not_lt]
    exact fun h => hsize h.1
  rw [if_neg hlimit]
  split
  · exact ⟨_, rfl, delivers_status z hv _⟩
  · exact ⟨_, rfl, delivers_body z hv _ _ _⟩

section

variable {z : Zlib} {i : Nat} {r : HandlerResult} {t : AnyServerCall}

/-- A unary call delivers the metadata of its handler. -/
theorem ServerCall.metadataDelivered {u : ServerCall} (hv : u.call.ctx.Validated)
    (hn : (AnyServerCall.unary u).ReturnsNormally r)
    (ht : (AnyServerCall.unary u).handlerReturn z i r = some t) :
    t.MetadataDelivered u.call.ctx := by
  obtain ⟨_, hr, hsize⟩ := hn
  obtain ⟨u', hu', rfl⟩ := Option.map_eq_some_iff.1 ht
  obtain ⟨_, _, rfl⟩ := Option.map_eq_some_iff.1 hu'
  have hd := ServerCallState.delivers_responseReply z hv hsize
  obtain ⟨_, _, hreply⟩ := u.call.handlerReturned_reply z r
  rw [hr, if_neg Bool.false_ne_true] at hreply
  generalize u.call.responseReply z (handlerStatus r.status) r.respBytes = reply at hd hreply
  obtain ⟨head, body⟩ := reply
  have htrace : ResponseEffect.call (.writeHead 200 head) ∈
      u.trace ++ replyEffects (u.call.handlerReturned z r).2 := by
    rw [hreply]
    exact List.mem_append.2 (Or.inr List.mem_cons_self)
  have hbody : ((u.call.handlerReturned z r).2.map Reply.body).getD u.body = body := by
    rw [hreply]
    rfl
  refine ⟨⟨head, htrace, hd.head⟩, _, ?_, hd.status, hd.trailing⟩
  show AnyServerCall.StatusBlock _ (.unary _)
  simp only [AnyServerCall.StatusBlock, ServerCall.after, hbody]
  cases body with
  | none => exact htrace
  | some b => rfl

/-- A client-streaming call delivers the metadata of its handler. -/
theorem ClientStreamingCall.metadataDelivered {u : ClientStreamingCall}
    (hv : u.call.ctx.Validated) (hn : (AnyServerCall.clientStreaming u).ReturnsNormally r)
    (ht : (AnyServerCall.clientStreaming u).handlerReturn z i r = some t) :
    t.MetadataDelivered u.call.ctx := by
  obtain ⟨_, hr, hsize⟩ := hn
  obtain ⟨u', hu', rfl⟩ := Option.map_eq_some_iff.1 ht
  simp only [ClientStreamingCall.step, Option.ite_none_right_eq_some, Option.some.injEq] at hu'
  obtain ⟨_, rfl⟩ := hu'
  obtain ⟨⟨head, body⟩, hreply, hd⟩ :=
    ClientStreamingCallState.delivers_handlerReturned z hv hr hsize
  have htrace : ResponseEffect.call (.writeHead 200 head) ∈
      u.trace ++ replyEffects (u.call.handlerReturned z r).2 := by
    rw [hreply]
    exact List.mem_append.2 (Or.inr List.mem_cons_self)
  have hbody : ((u.call.handlerReturned z r).2.map Reply.body).getD u.body = body := by
    rw [hreply]
    rfl
  refine ⟨⟨head, htrace, hd.head⟩, _, ?_, hd.status, hd.trailing⟩
  show AnyServerCall.StatusBlock _ (.clientStreaming _)
  simp only [AnyServerCall.StatusBlock, ClientStreamingCall.after, hbody]
  cases body with
  | none => exact htrace
  | some b => rfl

/-- A streaming response delivers the metadata of its handler only if there are none. -/
theorem StreamMetadata.delivered_iff {ctx ctx' : ServerContext} {v : StreamView}
    {tr : List ResponseEffect} (h : StreamMetadata true ctx' v tr)
    (hctx : ctx'.metadata = ctx.metadata)
    (hc : v.closed = false) (hfin : v.writer.finished = true) :
    ((∃ h, ResponseEffect.call (.writeHead 200 h) ∈ tr ∧ CarriesAll h ctx.initialMetadata) ∧
      ∃ h, (v.writer.finished = true ∧ h = v.writer.trailHdrs) ∧
        (Multimap.find (text "grpc-status") h).isSome = true ∧
        CarriesAll h ctx.trailingMetadata) ↔ ctx.metadata = ([], []) := by
  have hv := h.validated.congr hctx.symm
  obtain ⟨s, hs⟩ := (h.trailered hc).2 hfin
  constructor
  · rintro ⟨⟨head, hmem, hhead⟩, _, ⟨_, rfl⟩, _, htrail⟩
    have hi := ((h.heads _ _ hmem).carriesAll_iff hv.1).1 hhead
    rw [hs] at htrail
    have ht := ((ownHeaders_nil.buildTrailers s).carriesAll_iff hv.2).1 htrail
    rw [ServerContext.metadata, hi, ht]
  · intro hm
    have hi : ctx.initialMetadata = [] := congrArg Prod.fst hm
    have ht : ctx.trailingMetadata = [] := congrArg Prod.snd hm
    obtain ⟨head, hmem⟩ := h.head rfl
    refine ⟨⟨head, hmem, hi ▸ carriesAll_nil _⟩, _, ⟨hfin, rfl⟩, ?_, ht ▸ carriesAll_nil _⟩
    rw [hs]
    exact find_status_isSome rfl s []

/-- A server-streaming call delivers the metadata of its handler only if there are none. -/
theorem ServerStreamingCall.metadataDelivered_iff {u : ServerStreamingCall}
    (hu : StreamMetadata u.spawned u.call.ctx u.call.view u.trace)
    (hs : u.handlers ≠ [] → u.spawned = true)
    (hn : (AnyServerCall.serverStreaming u).ReturnsNormally r)
    (ht : (AnyServerCall.serverStreaming u).handlerReturn z i r = some t) :
    t.MetadataDelivered u.call.ctx ↔ u.call.ctx.metadata = ([], []) := by
  have hc : u.call.closed = false := hn.1
  obtain ⟨u', hu', rfl⟩ := Option.map_eq_some_iff.1 ht
  obtain ⟨_, hget, rfl⟩ := Option.map_eq_some_iff.1 hu'
  have hspawned : u.spawned = true := hs fun hnil => by simp [hnil] at hget
  have hview := u.call.view_handlerReturned r.status
  have hnew := hu.member hview rfl rfl
  rw [hspawned] at hnew
  refine hnew.delivered_iff hview.metadata ?_ ?_
  · show (u.call.handlerReturned r.status).1.closed = false
    rw [(u.call.memberStep_handlerReturned r.status).closed, hc]
  · show (u.call.handlerReturned r.status).1.writerImpl.finished = true
    simp only [ServerStreamingCallState.handlerReturned]
    split
    · assumption
    · exact u.call.writerImpl.finish_finished _

/-- A bidirectional call delivers the metadata of its handler only if there are none. -/
theorem BidiStreamingCall.metadataDelivered_iff {u : BidiStreamingCall}
    (hu : StreamMetadata u.registered u.call.ctx u.call.view u.trace)
    (hs : u.running = true → u.registered = true)
    (hn : (AnyServerCall.bidi u).ReturnsNormally r)
    (ht : (AnyServerCall.bidi u).handlerReturn z i r = some t) :
    t.MetadataDelivered u.call.ctx ↔ u.call.ctx.metadata = ([], []) := by
  have hc : u.call.closed = false := hn.1
  obtain ⟨u', hu', rfl⟩ := Option.map_eq_some_iff.1 ht
  simp only [BidiStreamingCall.step, Option.ite_none_right_eq_some, Option.some.injEq] at hu'
  obtain ⟨hrunning, rfl⟩ := hu'
  have hview := BidiStreamingCallState.view_finishWriter
    { u.call with timer := u.call.timer.cancel } (handlerStatus r.status)
  have hnew := hu.member hview rfl rfl
  rw [hs hrunning] at hnew
  refine hnew.delivered_iff hview.metadata ?_ ?_
  · show (u.call.handlerReturned r.status).1.closed = false
    simp only [BidiStreamingCallState.handlerReturned, BidiStreamingCallState.finishWriter]
    split <;> exact hc
  · show (u.call.handlerReturned r.status).1.writerImpl.finished = true
    simp only [BidiStreamingCallState.handlerReturned, BidiStreamingCallState.finishWriter]
    split
    · assumption
    · exact u.call.writerImpl.finish_finished _

/-- What a server-streaming call has run: a handler only behind `Start`. -/
structure ServerStreamingCall.HandlerMetadata (u : ServerStreamingCall) : Prop where
  stream : StreamMetadata u.spawned u.call.ctx u.call.view u.trace
  spawned : u.handlers ≠ [] → u.spawned = true

theorem ServerStreamingCall.handlerMetadata_step {u u' : ServerStreamingCall}
    {e : ServerStreamingEvent} (hu : u.HandlerMetadata) (h : u.step z e = some u') :
    u'.HandlerMetadata := by
  refine ⟨streamMetadata_step hu.stream h, fun hne => ?_⟩
  cases step_move h with
  | data chunk hreg =>
      show (u.spawned || (u.call.onData z chunk).2.2.isSome) = true
      cases hr : (u.call.onData z chunk).2.2 with
      | some req => simp
      | none =>
          rw [hu.spawned fun hnil => hne (by simp [after, hnil, hr])]
          rfl
  | handlerReturn i status req hget => exact hu.spawned fun hnil => by simp [hnil] at hget
  -- the other events spawn no handler
  | _ => exact hu.spawned hne

/-- What a bidirectional call has run: the handler only behind `Start`. -/
structure BidiStreamingCall.HandlerMetadata (u : BidiStreamingCall) : Prop where
  stream : StreamMetadata u.registered u.call.ctx u.call.view u.trace
  started : u.registered = true → u.started = true
  running : u.running = true → u.registered = true

theorem BidiStreamingCall.handlerMetadata_step {u u' : BidiStreamingCall}
    {e : BidiStreamingEvent} (hu : u.HandlerMetadata) (h : u.step z e = some u') :
    u'.HandlerMetadata := by
  have hstream := streamMetadata_step hu.started hu.stream h
  cases step_move h with
  | start req hnew => exact ⟨hstream, fun _ => rfl, id⟩
  | handlerReturn status hrun => exact ⟨hstream, hu.started, fun hr => by cases hr⟩
  | _ => exact ⟨hstream, hu.started, hu.running⟩

end

/-- **Handler metadata reach the client** if and only if the call is unary or client-streaming, or
the handler added none: for every reachable call whose handler returns on an open stream, with an
unanswered call and a message within the limit where there is only one. -/
theorem metadata_delivered_iff (z : Zlib) (s : AnyServerCall) (hs : s.Reachable z) (i : Nat)
    (r : HandlerResult) (hn : s.ReturnsNormally r) (t : AnyServerCall)
    (ht : s.handlerReturn z i r = some t) :
    t.MetadataDelivered s.ctx ↔ s.AnswersLast ∨ s.ctx.metadata = ([], []) := by
  -- the metadata of the context is valid in every reachable call
  have hnew : ServerContext.new.Validated := ⟨validated_nil, validated_nil⟩
  cases s with
  | unary u =>
      obtain ⟨_, _, _, _, hreach⟩ := hs
      have hv := hreach.invariant (I := fun u => u.call.ctx.Validated)
        (fun _ _ _ hu h => ServerCall.validated_step hu h) hnew
      exact iff_of_true (ServerCall.metadataDelivered hv hn ht) (Or.inl trivial)
  | clientStreaming u =>
      obtain ⟨_, _, _, _, hreach⟩ := hs
      have hv := hreach.invariant (I := fun u => u.call.ctx.Validated)
        (fun _ _ _ hu h => ClientStreamingCall.validated_step hu h) hnew
      exact iff_of_true (ClientStreamingCall.metadataDelivered hv hn ht) (Or.inl trivial)
  | serverStreaming u =>
      obtain ⟨_, _, _, _, hreach⟩ := hs
      have hu := hreach.invariant (I := ServerStreamingCall.HandlerMetadata)
        (fun _ _ _ hu h => ServerStreamingCall.handlerMetadata_step hu h)
        ⟨⟨hnew, fun h => (by cases h), fun _ => rfl, fun _ _ h => (by cases h),
          fun h => (by cases h), fun _ => RawServerWriterImpl.trailered_new _⟩,
          fun h => absurd rfl h⟩
      rw [show (AnyServerCall.serverStreaming u).ctx = u.call.ctx from rfl,
        ServerStreamingCall.metadataDelivered_iff hu.stream hu.spawned hn ht]
      simp [AnyServerCall.AnswersLast]
  | bidi u =>
      obtain ⟨_, _, _, _, hreach⟩ := hs
      have hu := hreach.invariant (I := BidiStreamingCall.HandlerMetadata)
        (fun _ _ _ hu h => BidiStreamingCall.handlerMetadata_step hu h)
        ⟨⟨hnew, fun h => (by cases h), fun _ => rfl, fun _ _ h => (by cases h),
          fun h => (by cases h), fun _ => RawServerWriterImpl.trailered_new _⟩,
          fun h => (by cases h), fun h => (by cases h)⟩
      rw [show (AnyServerCall.bidi u).ctx = u.call.ctx from rfl,
        BidiStreamingCall.metadataDelivered_iff hu.stream hu.running hn ht]
      simp [AnyServerCall.AnswersLast]

/-- A unary call whose handler adds initial and trailing metadata. -/
theorem metadata_delivered_example :
    ∃ u t, (ServerCall.machine Zlib.none).run
        (ServerCall.new (ServerCallState.new 100 100 100 []))
        [.start timeoutRequest, .data (frameOf [1]), .data [],
          .addMetadata false (text "served-by") (text "a"),
          .addMetadata true (text "cost") (text "3")] = some u ∧
      u.call.ctx.metadata = ([(text "served-by", text "a")], [(text "cost", text "3")]) ∧
      (AnyServerCall.unary u).handlerReturn Zlib.none 0 okResult = some t ∧
      t.MetadataDelivered u.call.ctx := by
  obtain ⟨u, hu⟩ := Option.isSome_iff_exists.1 (show ((ServerCall.machine Zlib.none).run
    (ServerCall.new (ServerCallState.new 100 100 100 []))
    [.start timeoutRequest, .data (frameOf [1]), .data [],
      .addMetadata false (text "served-by") (text "a"),
      .addMetadata true (text "cost") (text "3")]).isSome = true by decide)
  have hfacts : ∀ v, (ServerCall.machine Zlib.none).run
      (ServerCall.new (ServerCallState.new 100 100 100 []))
      [.start timeoutRequest, .data (frameOf [1]), .data [],
        .addMetadata false (text "served-by") (text "a"),
        .addMetadata true (text "cost") (text "3")] = some v →
      v.call.ctx.metadata = ([(text "served-by", text "a")], [(text "cost", text "3")]) ∧
        (AnyServerCall.unary v).ReturnsNormally okResult ∧
        ((AnyServerCall.unary v).handlerReturn Zlib.none 0 okResult).isSome = true := by
    rintro v hv
    cases hv
    exact ⟨by decide, ⟨by decide, by decide, fun _ => by decide⟩, by decide⟩
  obtain ⟨hm, hn, hsome⟩ := hfacts u hu
  obtain ⟨t, ht⟩ := Option.isSome_iff_exists.1 hsome
  exact ⟨u, t, hu, hm, ht, (metadata_delivered_iff Zlib.none (.unary u)
    ⟨100, 100, 100, [], _, hu⟩ 0 okResult hn t ht).2 (Or.inl trivial)⟩

/-- **Metadata that are not sent.** A bidirectional handler adds initial metadata and returns; the
headers were written before it ran. -/
theorem not_metadata_delivered :
    ¬ ∀ (z : Zlib) (s : AnyServerCall), s.Reachable z → ∀ i r, s.ReturnsNormally r →
      ∀ t, s.handlerReturn z i r = some t → t.MetadataDelivered s.ctx := by
  intro h
  obtain ⟨u, hu⟩ := Option.isSome_iff_exists.1 (show ((BidiStreamingCall.machine Zlib.none).run
    (BidiStreamingCall.new (BidiStreamingCallState.new 100 100 100 []))
    [.start timeoutRequest, .addMetadata false (text "served-by") (text "a")]).isSome = true by
      decide)
  have hfacts : ∀ v, (BidiStreamingCall.machine Zlib.none).run
      (BidiStreamingCall.new (BidiStreamingCallState.new 100 100 100 []))
      [.start timeoutRequest, .addMetadata false (text "served-by") (text "a")] = some v →
      v.call.closed = false ∧ (text "served-by", text "a") ∈ v.call.ctx.initialMetadata ∧
        ((AnyServerCall.bidi v).handlerReturn Zlib.none 0 okResult).any (fun t =>
          t.trace.all fun e => match e with
            | .call (.writeHead _ h) => !decide (wireHeader (text "served-by", text "a") ∈ h)
            | .call .endEmpty | .call .endWith | .call .resume | .call (.writeTrailer _)
            | .closed => true) = true := by
    rintro v hv
    cases hv
    exact ⟨by decide, by decide, by decide⟩
  obtain ⟨hc, hmem, hany⟩ := hfacts u hu
  obtain ⟨t, ht, hheads⟩ := (Option.any_eq_true ..).1 hany
  obtain ⟨⟨head, hhead, hall⟩, _⟩ := h Zlib.none (.bidi u) ⟨100, 100, 100, [], _, hu⟩ 0 okResult
    ⟨hc, trivial⟩ t ht
  have habsent : (!decide (wireHeader (text "served-by", text "a") ∈ head)) = true :=
    List.all_eq_true.1 hheads _ hhead
  exact absurd (hall _ hmem) (by simpa using habsent)

end Rpcpio.Server
