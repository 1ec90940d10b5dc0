import Rpcpio.Stream.StatusDelivery
import Rpcpio.Stream.UnaryRoundTrip

/-!
# Unary calls that are answered with an error

The complement of the round trip: the handler fails or throws, or its response is over the server's
limit. The reply is a single header block with the status, and the streams close behind it, the
client's before or after the block was handled. Whatever the chunks and the order, the handler gets
the request once, and the client completes once, with the status and without a response.
-/

set_option autoImplicit false

namespace Rpcpio.Stream

open Rpcpio.Library Rpcpio.Protocol Rpcpio.Client Rpcpio.Server

/-- An event of an exchange, or the close of a stream behind a reply without a body. -/
inductive RefusalEvent where
  | exchange (e : ExchangeEvent)
  | serverEnd
  | clientEnd (errorCode : Nat)
  deriving DecidableEq, Repr

namespace UnaryExchange

/-- One event of an exchange with a reply without a body. -/
def stepRefusal (z : Zlib) (x : UnaryExchange) : RefusalEvent → Option UnaryExchange
  | .exchange e => x.step z e
  | .serverEnd =>
      if x.server.trace.contains (.call .endEmpty) && !x.server.call.closed then
        (x.server.step z .close).map fun s => { x with server := s }
      else none
  | .clientEnd errorCode =>
      if x.headArrived && !x.registered && !x.clientClosed then
        some ({ x with clientClosed := true }.post (.close errorCode))
      else none

/-- The exchanges with the streams' ends as a machine. -/
def refusals (z : Zlib) : Machine UnaryExchange RefusalEvent := ⟨stepRefusal z⟩

end UnaryExchange

/-- The status of the reply to a handler's result that is not a response: its own, or that of a
response over the limit. -/
def refusalStatus (s : Status) : Status := if s.isOk then responseTooLarge else s

/-- A result with a status and no response. -/
structure IsRefusal (s : Status) (r : UnaryResultRaw) : Prop where
  status : r.status = s
  hasResponse : r.hasResponse = false
  responseBytes : r.responseBytes = []

/-- A header block that ends a call with a status. -/
structure Refuses (s : Status) (headers : HeaderMap) : Prop where
  grpc : isGrpc headers = true
  status : Multimap.contains (text "grpc-status") headers = true
  encoding : Multimap.find (text "grpc-encoding") headers = none
  extract : extractTrailerStatus headers = s

/-! ## The reply -/

section

variable {z : Zlib}

/-- A status on top of the headers of a call state refuses. -/
theorem refuses_buildTrailers (s : Status) (initial trailing : MetadataMap) :
    Refuses s (buildTrailers s trailing
      (metadataToNghttp2Headers initial (addCommonHeaders z []))) := by
  have hblock := headBlock_cases_status (.status (z := z) s initial trailing)
  have hcontains : Multimap.contains (text "grpc-status") (buildTrailers s trailing
      (metadataToNghttp2Headers initial (addCommonHeaders z []))) = true := by
    rw [Multimap.contains, find_status_buildTrailers
      (find_common_eq_none (by decide) (by decide) (by decide) initial)]
    rfl
  rcases hblock with hnone | ⟨_, _, hgrpc, henc⟩
  · rw [hcontains] at hnone
    cases hnone
  · exact ⟨hgrpc, hcontains, henc, extractTrailerStatus_head z s initial trailing⟩

/-- A handler's result that is no response is answered by a header block with its status. -/
theorem handlerReturned_refused {c : ServerCallState} {s : Status} {q : Bytes}
    (hresp : c.responded = false) (hbad : s.isOk = false ∨ c.maxResponseSize < q.length) :
    ∃ headers, Refuses (refusalStatus s) headers ∧
      c.handlerReturned z ⟨some s, q⟩ =
        ({ c with responded := true, timer := c.timer.cancel }, some ⟨headers, none⟩) := by
  cases hs : s.isOk with
  | false =>
      have hstatus : refusalStatus s = s := by simp [refusalStatus, hs]
      refine ⟨_, hstatus.symm ▸ refuses_buildTrailers (z := z) s c.ctx.initialMetadata
        c.ctx.trailingMetadata, ?_⟩
      simp [ServerCallState.handlerReturned, hresp, ServerCallState.sendResponse,
        ServerCallState.responseReply, handlerStatus, hs, hstatus]
  | true =>
      have hlarge : c.maxResponseSize < q.length := by simpa [hs] using hbad
      have hstatus : refusalStatus s = responseTooLarge := by simp [refusalStatus, hs]
      refine ⟨_, hstatus.symm ▸ refuses_buildTrailers (z := z) responseTooLarge [] [], ?_⟩
      simp [ServerCallState.handlerReturned, hresp, ServerCallState.sendResponse,
        ServerCallState.responseReply, handlerStatus, hs, hlarge, hstatus,
        errorReply, metadataToNghttp2Headers]

/-- The client takes the block for the end of the call. -/
theorem headResult_refused {c : ClientCallState} {s : Status} {headers : HeaderMap}
    (h : Refuses s headers)
    (hfresh : c.result = UnaryResultRaw.of Status.okStatus) :
    ∃ r, c.headResult z ⟨200, headers⟩ = .error r ∧ IsRefusal s r := by
  refine ⟨{ c.result with
    status := extractTrailerStatus headers
    initialMetadata :=
      (nghttp2HeadersToMetadata headers c.result.initialMetadata kMaxMetadataSize).2
    trailingMetadata :=
      (nghttp2HeadersToMetadata headers c.result.trailingMetadata kMaxMetadataSize).2 }, ?_,
    h.extract, by rw [hfresh]; rfl, by rw [hfresh]; rfl⟩
  simp [ClientCallState.headResult, h.grpc, h.encoding, h.status]

end

/-! ## The invariant -/

/-- The client before the head. -/
def freshClient (ctx : Option ClientContext) : UnaryCompletion :=
  { UnaryCompletion.new ctx with call := (ClientCallState.new ctx).armTimer }

/-- Nothing has been sent to the client. -/
structure Awaiting (ctx : Option ClientContext) (x : UnaryExchange) : Prop where
  eof : x.eof = false
  emitted : x.emitted = []
  client : x.client = freshClient ctx
  strand : x.strand = []
  headArrived : x.headArrived = false
  registered : x.registered = false
  trailersArrived : x.trailersArrived = false
  clientClosed : x.clientClosed = false

/-- The reply has been written: a header block, and the end of the stream. -/
structure Refused (ctx : Option ClientContext) (r : Bytes) (s : Status) (headers : HeaderMap)
    (x : UnaryExchange) : Prop where
  ended : x.requestEnded = true
  upstream : x.upstream = []
  started : x.server.started = true
  responded : x.server.call.responded = true
  handlers : x.server.handlers = []
  invocations : x.invocations = [r]
  body : x.server.body = none
  eof : x.eof = false
  emitted : x.emitted = []
  trace : x.server.trace = [.call (.writeHead 200 headers), .call .endEmpty] ++
    if x.server.call.closed then [.closed] else []
  registered : x.registered = false
  trailersArrived : x.trailersArrived = false
  waiting : x.headArrived = false → x.client = freshClient ctx ∧ x.strand = [] ∧
    x.clientClosed = false
  answered : x.headArrived = true → x.client.call.completed = true ∧
    ∃ res, x.client.ioc ++ x.client.invoked = [res] ∧ IsRefusal s res
  strand : ∀ e ∈ x.strand, ∃ errorCode, e = .close errorCode

/-- The invariant of an exchange that is answered with an error: request, handler, reply. -/
def RefusalInvariant (ctx : Option ClientContext) (m maxResponseSize : Nat) (r q : Bytes)
    (s : Status) (x : UnaryExchange) : Prop :=
  x.status = s ∧ x.response = q ∧
    ((Awaiting ctx x ∧ (Receiving m maxResponseSize r x ∨ Running maxResponseSize r x)) ∨
      ∃ headers, Refuses (refusalStatus s) headers ∧
        Refused ctx r (refusalStatus s) headers x)

/-- What is left to do. -/
def UnaryExchange.refusalRemaining (x : UnaryExchange) : Nat :=
  x.upstream.length + (!x.requestEnded).toNat + (!x.server.call.responded).toNat +
    (!x.server.call.closed).toNat + 2 * (!x.headArrived).toNat + 2 * (!x.clientClosed).toNat +
    x.strand.length + x.client.ioc.length

/-- The events that carry the call on. -/
def isRefusalEvent : RefusalEvent → Bool
  | .exchange e => isCallEvent e
  | _ => true

section

variable {ctx : Option ClientContext} {m maxResponseSize : Nat} {r q : Bytes} {s : Status}
  {z : Zlib} {x x' : UnaryExchange}

/-- A piece of the request arrives. -/
theorem Receiving.refusalRequest {n : Nat} (h : Receiving m maxResponseSize r x)
    (hr : (serverFormat m).WellFormed (messageFrame 0 r)) (ha : Awaiting ctx x)
    (hstep : x.step z (.request n) = some x') :
    x'.status = x.status ∧ x'.response = x.response ∧ Awaiting ctx x' ∧
      Receiving m maxResponseSize r x' ∧ x'.refusalRemaining < x.refusalRemaining := by
  simp only [UnaryExchange.step, Option.ite_none_right_eq_some, Bool.and_eq_true,
    decide_eq_true_eq] at hstep
  obtain ⟨⟨hn, hle⟩, hstep⟩ := hstep
  obtain ⟨h', server, rfl⟩ := h.request hr hn hle hstep
  have hresp : server.call.responded = x.server.call.responded :=
    h'.responded.trans h.responded.symm
  have hclosed : server.call.closed = x.server.call.closed := h'.closed.trans h.closed.symm
  refine ⟨rfl, rfl, { ha with }, h', ?_⟩
  simp only [UnaryExchange.refusalRemaining, hresp, hclosed, List.length_drop]
  omega

/-- The request ends, and the handler is invoked with it. -/
theorem Receiving.refusalRequestEnd (h : Receiving m maxResponseSize r x)
    (hr : (serverFormat m).WellFormed (messageFrame 0 r)) (ha : Awaiting ctx x)
    (hstep : x.step z .requestEnd = some x') :
    x'.status = x.status ∧ x'.response = x.response ∧ Awaiting ctx x' ∧
      Running maxResponseSize r x' ∧ x'.refusalRemaining < x.refusalRemaining := by
  simp only [UnaryExchange.step, Option.ite_none_right_eq_some, Bool.and_eq_true,
    List.isEmpty_iff, Bool.not_eq_true'] at hstep
  obtain ⟨⟨hnil, hopen⟩, hstep⟩ := hstep
  obtain ⟨h', server, invocations, rfl⟩ := h.requestEnd hr hnil hstep
  have hresp : server.call.responded = x.server.call.responded :=
    h'.responded.trans h.responded.symm
  have hclosed : server.call.closed = x.server.call.closed := h'.closed.trans h.closed.symm
  refine ⟨rfl, rfl, { ha with }, h', ?_⟩
  simp only [UnaryExchange.refusalRemaining, hresp, hclosed, hopen, Bool.not_true,
    Bool.not_false, Bool.toNat_true, Bool.toNat_false]
  omega

/-- The handler returns, and the reply is written. -/
theorem Running.refuse (h : Running maxResponseSize r x) (ha : Awaiting ctx x)
    (hbad : s.isOk = false ∨ maxResponseSize < q.length) {server : ServerCall}
    (hstep : x.server.step z (.handlerReturn 0 ⟨some s, q⟩) = some server) :
    server.call.closed = x.server.call.closed ∧ ∃ headers, Refuses (refusalStatus s) headers ∧
      Refused ctx r (refusalStatus s) headers { x with server := server } := by
  obtain ⟨headers, hrefuses, hret⟩ :=
    handlerReturned_refused (z := z) (q := q) h.responded (by rw [h.limit]; exact hbad)
  simp only [ServerCall.step, h.handlers, List.getElem?_cons_zero, Option.map_some, hret,
    ServerCall.after, replyEffects, Reply.effects, Reply.calls, h.trace, Option.some.injEq]
    at hstep
  subst hstep
  refine ⟨rfl, headers, hrefuses, ⟨h.ended, h.upstream, h.started, rfl, rfl, h.invocations, rfl,
    ha.eof, ha.emitted, ?_, ha.registered, ha.trailersArrived,
    fun _ => ⟨ha.client, ha.strand, ha.clientClosed⟩, fun hh => ?_, fun e he => ?_⟩⟩
  · simp [h.closed]
  · rw [show _ = x.headArrived from rfl, ha.headArrived] at hh
    cases hh
  · rw [show _ = x.strand from rfl, ha.strand] at he
    cases he

/-- What a step does while the reply has not been written. -/
theorem refusalInvariant_awaiting {e : RefusalEvent}
    (hr : (serverFormat m).WellFormed (messageFrame 0 r))
    (hbad : s.isOk = false ∨ maxResponseSize < q.length) (hstatus : x.status = s)
    (hresponse : x.response = q) (ha : Awaiting ctx x)
    (hphase : Receiving m maxResponseSize r x ∨ Running maxResponseSize r x)
    (hstep : x.stepRefusal z e = some x') :
    RefusalInvariant ctx m maxResponseSize r q s x' ∧
      (isRefusalEvent e = true → x'.refusalRemaining < x.refusalRemaining) := by
  have hbody : x.server.body = none := hphase.elim (·.body) (·.body)
  have htrace : x.server.trace = [] := hphase.elim (·.trace) (·.trace)
  cases e with
  | serverEnd => simp [UnaryExchange.stepRefusal, htrace] at hstep
  | clientEnd errorCode => simp [UnaryExchange.stepRefusal, ha.headArrived] at hstep
  | exchange e =>
    rw [UnaryExchange.stepRefusal] at hstep
    cases e with
    -- the request arrives in pieces; its end runs the handler
    | request n =>
        rcases hphase with h | h
        · obtain ⟨hs', hq', ha', h', hlt⟩ := h.refusalRequest hr ha hstep
          exact ⟨⟨hs'.trans hstatus, hq'.trans hresponse, Or.inl ⟨ha', Or.inl h'⟩⟩, fun _ => hlt⟩
        · simp only [UnaryExchange.step, Option.ite_none_right_eq_some, Bool.and_eq_true,
            decide_eq_true_eq, h.upstream, List.length_nil] at hstep
          omega
    | requestEnd =>
        rcases hphase with h | h
        · obtain ⟨hs', hq', ha', h', hlt⟩ := h.refusalRequestEnd hr ha hstep
          exact ⟨⟨hs'.trans hstatus, hq'.trans hresponse, Or.inl ⟨ha', Or.inr h'⟩⟩, fun _ => hlt⟩
        · simp [UnaryExchange.step, h.ended] at hstep
    | addMetadata trailing key value =>
        obtain ⟨server, hserver, rfl⟩ := Option.map_eq_some_iff.1 hstep
        rcases hphase with h | h
        · simp [ServerCall.step, h.handlers] at hserver
        · exact ⟨⟨hstatus, hresponse, Or.inl ⟨{ ha with }, Or.inr (h.addMetadata hserver)⟩⟩,
            fun he => by cases he⟩
    | handlerReturn =>
        obtain ⟨server, hserver, rfl⟩ := Option.map_eq_some_iff.1 hstep
        rcases hphase with h | h
        · simp [ServerCall.step, h.handlers] at hserver
        · rw [hstatus, hresponse] at hserver
          obtain ⟨hclosed, headers, hrefuses, href⟩ := h.refuse ha hbad hserver
          refine ⟨⟨hstatus, hresponse, Or.inr ⟨headers, hrefuses, href⟩⟩, fun _ => ?_⟩
          have hresp : server.call.responded = true := href.responded
          simp only [UnaryExchange.refusalRemaining, hresp, hclosed, h.responded, Bool.not_true,
            Bool.not_false, Bool.toNat_true, Bool.toNat_false]
          omega
    -- nothing has been written, so the client has nothing to receive
    | poll len => simp [UnaryExchange.step, hbody] at hstep
    | serverClose => simp [UnaryExchange.step, ha.eof] at hstep
    | head => simp [UnaryExchange.step, htrace, writtenHeads] at hstep
    | deliver n => simp [UnaryExchange.step, ha.registered] at hstep
    | dataEnd => simp [UnaryExchange.step, ha.registered] at hstep
    | trailer => simp [UnaryExchange.step, ha.registered] at hstep
    | clientClose errorCode => simp [UnaryExchange.step, ha.trailersArrived] at hstep
    | runStrand => simp [UnaryExchange.step, ha.strand] at hstep
    | runIoc i =>
        obtain ⟨c, hc, rfl⟩ := Option.map_eq_some_iff.1 hstep
        obtain ⟨res, hres, rfl⟩ := Option.map_eq_some_iff.1 hc
        rw [ha.client] at hres
        cases hres

/-- The only callback moves from the posted to the invoked ones. -/
theorem moved_singleton {posted invoked : List UnaryResultRaw} {res a : UnaryResultRaw} {i : Nat}
    (h : posted ++ invoked = [res]) (hi : posted[i]? = some a) :
    posted.eraseIdx i ++ (invoked ++ [a]) = [res] := by
  cases posted with
  | nil => cases hi
  | cons b rest =>
      obtain ⟨rfl, hrest⟩ := List.cons.inj h
      obtain ⟨rfl, rfl⟩ := List.append_eq_nil_iff.1 hrest
      cases i with
      | zero =>
          cases hi
          rfl
      | succ i => cases hi

/-- The reply reaches the client, which completes with it. -/
theorem Refused.head {headers : HeaderMap} (h : Refused ctx r (refusalStatus s) headers x)
    (hrefuses : Refuses (refusalStatus s) headers) {c : UnaryCompletion}
    (hopen : x.headArrived = false)
    (hc : (UnaryCompletion.machine z).step x.client (.attach ⟨200, headers⟩) = some c) :
    Refused ctx r (refusalStatus s) headers
        { x with
          client := c
          headArrived := true
          registered := (x.client.call.attach z ⟨200, headers⟩).2.2 } ∧
      c.ioc.length = 1 := by
  obtain ⟨hclient, hstrand, _⟩ := h.waiting hopen
  rw [hclient] at hc ⊢
  obtain ⟨res, hres, hrefusal⟩ := headResult_refused (z := z) (c := (freshClient ctx).call)
    hrefuses rfl
  have hattach : (freshClient ctx).call.attach z ⟨200, headers⟩ =
      (((freshClient ctx).call.complete res).1, [res], false) := by
    rw [ClientCallState.attach, hres]
    rfl
  simp only [UnaryCompletion.machine, UnaryCompletion.step, hattach, UnaryCompletion.after,
    Option.some.injEq] at hc
  subst hc
  refine ⟨{ h with
    registered := by rw [hattach]
    waiting := fun hh => by cases hh
    answered := fun _ => ⟨rfl, res, rfl, hrefusal⟩ }, rfl⟩

/-- The server's end of the stream is closed after the reply. -/
theorem Refused.serverEnd {headers : HeaderMap} (h : Refused ctx r (refusalStatus s) headers x)
    (hstep : x.stepRefusal z .serverEnd = some x') :
    x'.status = x.status ∧ x'.response = x.response ∧
      Refused ctx r (refusalStatus s) headers x' ∧ x'.refusalRemaining < x.refusalRemaining := by
  simp only [UnaryExchange.stepRefusal, Option.ite_none_right_eq_some, Bool.and_eq_true,
    Bool.not_eq_true'] at hstep
  obtain ⟨⟨_, hopen⟩, hstep⟩ := hstep
  obtain ⟨server, hserver, rfl⟩ := Option.map_eq_some_iff.1 hstep
  have hclose : x.server.call.onClose =
      { x.server.call with closed := true, timer := x.server.call.timer.cancel } := by
    simp [ServerCallState.onClose, hopen, h.responded]
  simp only [ServerCall.step, h.started, if_true, hclose, hopen, Option.some.injEq] at hserver
  subst hserver
  have htrace := h.trace
  rw [hopen] at htrace
  refine ⟨rfl, rfl, { h with
    started := rfl
    trace := by simp [htrace] }, ?_⟩
  simp [UnaryExchange.refusalRemaining, hopen]

/-- The client's end of the stream is closed once the reply has arrived. -/
theorem Refused.clientEnd {headers : HeaderMap} {errorCode : Nat}
    (h : Refused ctx r (refusalStatus s) headers x)
    (hstep : x.stepRefusal z (.clientEnd errorCode) = some x') :
    x'.status = x.status ∧ x'.response = x.response ∧
      Refused ctx r (refusalStatus s) headers x' ∧ x'.refusalRemaining < x.refusalRemaining := by
  simp only [UnaryExchange.stepRefusal, Option.ite_none_right_eq_some, Bool.and_eq_true,
    Bool.not_eq_true', Option.some.injEq] at hstep
  obtain ⟨⟨⟨harr, _⟩, hopen⟩, rfl⟩ := hstep
  refine ⟨rfl, rfl, { h with
    waiting := fun hh => ?_
    strand := fun e he => ?_ }, ?_⟩
  · rw [show _ = x.headArrived from rfl, harr] at hh
    cases hh
  · rcases List.mem_append.1 he with he | he
    · exact h.strand e he
    · exact ⟨errorCode, List.mem_singleton.1 he⟩
  · simp [UnaryExchange.refusalRemaining, UnaryExchange.post, hopen]
    omega

/-- The closure on the strand is that of the end of the stream, and finds the call completed. -/
theorem Refused.runStrand {headers : HeaderMap} (h : Refused ctx r (refusalStatus s) headers x)
    (hstep : x.step z .runStrand = some x') :
    x'.status = x.status ∧ x'.response = x.response ∧
      Refused ctx r (refusalStatus s) headers x' ∧ x'.refusalRemaining < x.refusalRemaining := by
  cases hs : x.strand with
  | nil => simp [UnaryExchange.step, hs] at hstep
  | cons task rest =>
      simp only [UnaryExchange.step, hs] at hstep
      obtain ⟨c, hc, rfl⟩ := Option.map_eq_some_iff.1 hstep
      have harr : x.headArrived = true := by
        cases hx : x.headArrived with
        | true => rfl
        | false =>
            rw [(h.waiting hx).2.1] at hs
            cases hs
      obtain ⟨errorCode, rfl⟩ := h.strand task (by simp [hs])
      obtain rfl := step_completed (h.answered harr).1 (Or.inr (Or.inr ⟨errorCode, rfl⟩)) hc
      refine ⟨rfl, rfl, { h with
        waiting := fun hh => ?_
        strand := fun e he => h.strand e (by simp [hs, he]) }, ?_⟩
      · rw [show _ = x.headArrived from rfl, harr] at hh
        cases hh
      · simp [UnaryExchange.refusalRemaining, hs]

/-- The handler of the caller runs, with the refusal. -/
theorem Refused.runIoc {headers : HeaderMap} {i : Nat}
    (h : Refused ctx r (refusalStatus s) headers x) (hstep : x.step z (.runIoc i) = some x') :
    x'.status = x.status ∧ x'.response = x.response ∧
      Refused ctx r (refusalStatus s) headers x' ∧ x'.refusalRemaining < x.refusalRemaining := by
  obtain ⟨c, hc, rfl⟩ := Option.map_eq_some_iff.1 hstep
  obtain ⟨res, hres, rfl⟩ := Option.map_eq_some_iff.1 hc
  have hi := (List.getElem?_eq_some_iff.1 hres).1
  refine ⟨rfl, rfl, { h with
    waiting := fun hh => ?_
    answered := fun hh => ?_ }, ?_⟩
  · have hfresh := (h.waiting hh).1
    rw [hfresh] at hres
    cases hres
  · obtain ⟨hdone, res', hone, hrefusal⟩ := h.answered hh
    exact ⟨hdone, res', moved_singleton hone hres, hrefusal⟩
  · simp only [UnaryExchange.refusalRemaining, List.length_eraseIdx, hi, if_true]
    omega

/-- What a step does once the reply has been written. -/
theorem refusalInvariant_refused {e : RefusalEvent} {headers : HeaderMap}
    (hstatus : x.status = s) (hresponse : x.response = q)
    (hrefuses : Refuses (refusalStatus s) headers)
    (h : Refused ctx r (refusalStatus s) headers x) (hstep : x.stepRefusal z e = some x') :
    RefusalInvariant ctx m maxResponseSize r q s x' ∧
      (isRefusalEvent e = true → x'.refusalRemaining < x.refusalRemaining) := by
  -- a step that leaves the reply written, and less to do
  have hkeep (hk : x'.status = x.status ∧ x'.response = x.response ∧
      Refused ctx r (refusalStatus s) headers x' ∧ x'.refusalRemaining < x.refusalRemaining) :
      RefusalInvariant ctx m maxResponseSize r q s x' ∧
        (isRefusalEvent e = true → x'.refusalRemaining < x.refusalRemaining) := by
    obtain ⟨hs', hq', h', hlt⟩ := hk
    exact ⟨⟨hs'.trans hstatus, hq'.trans hresponse, Or.inr ⟨headers, hrefuses, h'⟩⟩, fun _ => hlt⟩
  cases e with
  | serverEnd => exact hkeep (h.serverEnd hstep)
  | clientEnd errorCode => exact hkeep (h.clientEnd hstep)
  | exchange e =>
    rw [UnaryExchange.stepRefusal] at hstep
    cases e with
    -- the request is over, and the reply has no body and no trailers
    | request n =>
        simp only [UnaryExchange.step, Option.ite_none_right_eq_some, Bool.and_eq_true,
          decide_eq_true_eq, h.upstream, List.length_nil] at hstep
        omega
    | requestEnd => simp [UnaryExchange.step, h.ended] at hstep
    | addMetadata trailing key value =>
        simp [UnaryExchange.step, ServerCall.step, h.handlers] at hstep
    | handlerReturn => simp [UnaryExchange.step, ServerCall.step, h.handlers] at hstep
    | poll len => simp [UnaryExchange.step, h.body] at hstep
    | serverClose => simp [UnaryExchange.step, h.eof] at hstep
    | deliver n => simp [UnaryExchange.step, h.registered] at hstep
    | dataEnd => simp [UnaryExchange.step, h.registered] at hstep
    | trailer => simp [UnaryExchange.step, h.registered] at hstep
    | clientClose errorCode => simp [UnaryExchange.step, h.trailersArrived] at hstep
    | head =>
        have hheads : (writtenHeads x.server.trace).head? = some ⟨200, headers⟩ := by
          rw [h.trace]
          rfl
        simp only [UnaryExchange.step, hheads, Option.bind_some, Option.ite_none_left_eq_some,
          Bool.not_eq_true] at hstep
        obtain ⟨hopen, hstep⟩ := hstep
        obtain ⟨c, hc, rfl⟩ := Option.map_eq_some_iff.1 hstep
        obtain ⟨h', hioc⟩ := h.head hrefuses hopen hc
        refine hkeep ⟨rfl, rfl, h', ?_⟩
        simp [UnaryExchange.refusalRemaining, hopen, hioc]
        omega
    | runStrand => exact hkeep (h.runStrand hstep)
    | runIoc i => exact hkeep (h.runIoc hstep)

/-- **Every event keeps the invariant, and leaves less to do.** -/
theorem refusalInvariant_step {e : RefusalEvent}
    (hr : (serverFormat m).WellFormed (messageFrame 0 r))
    (hbad : s.isOk = false ∨ maxResponseSize < q.length)
    (h : RefusalInvariant ctx m maxResponseSize r q s x) (hstep : x.stepRefusal z e = some x') :
    RefusalInvariant ctx m maxResponseSize r q s x' ∧
      (isRefusalEvent e = true → x'.refusalRemaining < x.refusalRemaining) := by
  obtain ⟨hstatus, hresponse, ⟨ha, hphase⟩ | ⟨headers, hrefuses, href⟩⟩ := h
  · exact refusalInvariant_awaiting hr hbad hstatus hresponse ha hphase hstep
  · exact refusalInvariant_refused hstatus hresponse hrefuses href hstep

/-- No event of the call is left. -/
def UnaryExchange.RefusalQuiescent (z : Zlib) (x : UnaryExchange) : Prop :=
  ∀ e, isRefusalEvent e = true → x.stepRefusal z e = none

/-- A call on which nothing is left has been refused, and the client has completed. -/
theorem refusal_complete (h : RefusalInvariant ctx m maxResponseSize r q s x)
    (hq : x.RefusalQuiescent z) :
    x.invocations = [r] ∧ x.server.call.closed = true ∧ x.client.ioc = [] ∧
      ∃ res, x.client.invoked = [res] ∧ IsRefusal (refusalStatus s) res := by
  obtain ⟨_, _, ⟨_, hphase⟩ | ⟨headers, _, href⟩⟩ := h
  · exfalso
    rcases hphase with h | h
    · by_cases hnil : x.upstream = []
      · have hnone := hq (.exchange .requestEnd) rfl
        simp [UnaryExchange.stepRefusal, UnaryExchange.step, hnil, h.ended,
          UnaryExchange.serverData, ServerCall.step, h.registered] at hnone
      · have hpos := List.length_pos_iff.2 hnil
        have hnone := hq (.exchange (.request 1)) rfl
        simp [UnaryExchange.stepRefusal, UnaryExchange.step, Nat.succ_le_iff.2 hpos,
          UnaryExchange.serverData, ServerCall.step, h.registered] at hnone
    · have hnone := hq (.exchange .handlerReturn) rfl
      simp [UnaryExchange.stepRefusal, UnaryExchange.step, ServerCall.step, h.handlers] at hnone
  · have htrace : .call .endEmpty ∈ x.server.trace := by
      rw [href.trace]
      simp
    have hclosed : x.server.call.closed = true := by
      cases hx : x.server.call.closed with
      | true => rfl
      | false =>
          have hnone := hq .serverEnd rfl
          simp [UnaryExchange.stepRefusal, htrace, hx, ServerCall.step, href.started] at hnone
    have harr : x.headArrived = true := by
      cases hx : x.headArrived with
      | true => rfl
      | false =>
          have hheads : (writtenHeads x.server.trace).head? = some ⟨200, headers⟩ := by
            rw [href.trace]
            rfl
          have hnone := hq (.exchange .head) rfl
          simp [UnaryExchange.stepRefusal, UnaryExchange.step, hx, hheads,
            UnaryCompletion.machine, UnaryCompletion.step] at hnone
    have hioc : x.client.ioc = [] := by
      cases hx : x.client.ioc with
      | nil => rfl
      | cons a rest =>
          have hnone := hq (.exchange (.runIoc 0)) rfl
          simp [UnaryExchange.stepRefusal, UnaryExchange.step, UnaryCompletion.machine,
            UnaryCompletion.step, hx] at hnone
    obtain ⟨_, res, hone, hrefusal⟩ := href.answered harr
    rw [hioc] at hone
    exact ⟨href.invocations, hclosed, hioc, res, hone, hrefusal⟩

/-- The client's callbacks. -/
theorem RefusalInvariant.results (h : RefusalInvariant ctx m maxResponseSize r q s x) :
    (x.client.ioc ++ x.client.invoked).length ≤ 1 ∧
      ∀ res ∈ x.client.ioc ++ x.client.invoked, IsRefusal (refusalStatus s) res := by
  have hnone : x.client = freshClient ctx → (x.client.ioc ++ x.client.invoked).length ≤ 1 ∧
      ∀ res ∈ x.client.ioc ++ x.client.invoked, IsRefusal (refusalStatus s) res := by
    intro hfresh
    rw [hfresh]
    exact ⟨Nat.zero_le 1, fun res hres => by cases hres⟩
  obtain ⟨_, _, ⟨ha, _⟩ | ⟨headers, _, href⟩⟩ := h
  · exact hnone ha.client
  · cases hx : x.headArrived with
    | false => exact hnone (href.waiting hx).1
    | true =>
        obtain ⟨_, res, hone, hrefusal⟩ := href.answered hx
        rw [hone]
        refine ⟨Nat.le_refl 1, fun res' hres => ?_⟩
        rw [List.mem_singleton.1 hres]
        exact hrefusal

/-- The handler's requests, and the body. -/
theorem RefusalInvariant.served (h : RefusalInvariant ctx m maxResponseSize r q s x) :
    x.invocations <+: [r] ∧ x.emitted = [] := by
  obtain ⟨_, _, ⟨ha, hphase⟩ | ⟨headers, _, href⟩⟩ := h
  · refine ⟨?_, ha.emitted⟩
    rcases hphase with h | h
    · rw [h.invocations]
      exact List.nil_prefix
    · exact h.invocations ▸ List.prefix_rfl
  · exact ⟨href.invocations ▸ List.prefix_rfl, href.emitted⟩

end

/-! ## The refusal -/

/-- The exchange starts with the request unsent. -/
theorem refusalInvariant_start {z : Zlib} (ctx : Option ClientContext)
    {m maxMetadataSize maxResponseSize : Nat} {peerIdentity : Bytes} {req : Request}
    {r q : Bytes} {s : Status}
    (hstart : ((ServerCallState.new m maxMetadataSize maxResponseSize peerIdentity).start z
      req).2.2 = true)
    (henc : negotiated z req.header = none) (hr : r.length < 2 ^ 32) :
    RefusalInvariant ctx m maxResponseSize r q s (.start z ctx
      (.new m maxMetadataSize maxResponseSize peerIdentity) req r s q) := by
  obtain ⟨c, hc, hresp, hclosed, hlimit, hdecoder, hencoding⟩ := start_registered hstart
  refine ⟨rfl, rfl, Or.inl ⟨⟨rfl, rfl, rfl, rfl, rfl, rfl, rfl, rfl⟩, Or.inl ?_⟩⟩
  simp only [UnaryExchange.start, hc]
  exact ⟨rfl, rfl, rfl, hresp, hclosed, hencoding.trans henc, hlimit, rfl, rfl, rfl, rfl, [],
    by rw [encodeFrame_frameOf hr]; rfl, by
      show FrameDecoder.Reads m _ c.decoder
      rw [hdecoder]
      exact FrameDecoder.reads_new m⟩

/-- What the two ends of a refused call may rely on: the handler is invoked with the request, at
most once; no body is sent; the client completes at most once, with the status and without a
response; and the call comes to a rest at which the handler was invoked, the server's stream is
closed and the client has completed. -/
structure RefusalDelivered (z : Zlib) (r : Bytes) (s : Status) (x : UnaryExchange) : Prop where
  invoked : x.invocations <+: [r]
  emitted : x.emitted = []
  once : (x.client.ioc ++ x.client.invoked).length ≤ 1
  result : ∀ res ∈ x.client.ioc ++ x.client.invoked, IsRefusal s res
  bounded : ∃ n, ∀ es x', (∀ e ∈ es, isRefusalEvent e = true) →
    (UnaryExchange.refusals z).run x es = some x' → es.length ≤ n
  rests : ∃ es x', (∀ e ∈ es, isRefusalEvent e = true) ∧
    (UnaryExchange.refusals z).run x es = some x' ∧ x'.RefusalQuiescent z
  answered : x.RefusalQuiescent z → x.invocations = [r] ∧ x.server.call.closed = true ∧
    x.client.ioc = [] ∧ ∃ res, x.client.invoked = [res] ∧ IsRefusal s res

/-- The invariant has the results, and the events of the call come to an end. -/
theorem RefusalInvariant.delivered {ctx : Option ClientContext} {m maxResponseSize : Nat}
    {r q : Bytes} {s : Status} {z : Zlib} {x : UnaryExchange}
    (hr : (serverFormat m).WellFormed (messageFrame 0 r))
    (hbad : s.isOk = false ∨ maxResponseSize < q.length)
    (h : RefusalInvariant ctx m maxResponseSize r q s x) :
    RefusalDelivered z r (refusalStatus s) x := by
  have hstep : ∀ a e b, RefusalInvariant ctx m maxResponseSize r q s a →
      (UnaryExchange.refusals z).step a e = some b →
      RefusalInvariant ctx m maxResponseSize r q s b :=
    fun _ _ _ ha hb => (refusalInvariant_step hr hbad ha hb).1
  have hdec : ∀ a e b, RefusalInvariant ctx m maxResponseSize r q s a →
      isRefusalEvent e = true → (UnaryExchange.refusals z).step a e = some b →
      b.refusalRemaining < a.refusalRemaining :=
    fun _ _ _ ha he hb => (refusalInvariant_step hr hbad ha hb).2 he
  exact ⟨h.served.1, h.served.2, h.results.1, h.results.2,
    ⟨x.refusalRemaining, fun es x' hes hrun =>
      Machine.run_length_le hstep hdec es x x' h hes hrun⟩,
    Machine.exists_quiescent hstep hdec x h, refusal_complete h⟩

/-- **The refusal of a unary call.** A request within the limits, without an encoding, and a handler
whose result is an error, or a response over the limit: in every state that the call can reach,
whatever the chunks of the request, the metadata the handler adds, and the order in which the
streams end. -/
theorem unary_refusal {z : Zlib} {m maxMetadataSize maxResponseSize : Nat}
    {peerIdentity : Bytes} {req : Request} {ctx : Option ClientContext} {r q : Bytes} {s : Status}
    (hstart : ((ServerCallState.new m maxMetadataSize maxResponseSize peerIdentity).start z
      req).2.2 = true)
    (henc : negotiated z req.header = none) (hr : r.length ≤ m ∧ r.length < 2 ^ 32)
    (hbad : s.isOk = false ∨ maxResponseSize < q.length) {x : UnaryExchange}
    (hx : (UnaryExchange.refusals z).Reaches (.start z ctx
      (.new m maxMetadataSize maxResponseSize peerIdentity) req r s q) x) :
    RefusalDelivered z r (refusalStatus s) x := by
  have hwf := messageFrame_serverFormat hr.1 hr.2
  have hstep : ∀ a e b, RefusalInvariant ctx m maxResponseSize r q s a →
      (UnaryExchange.refusals z).step a e = some b →
      RefusalInvariant ctx m maxResponseSize r q s b :=
    fun _ _ _ ha hb => (refusalInvariant_step hwf hbad ha hb).1
  exact (hx.invariant hstep (refusalInvariant_start _ hstart henc hr.2)).delivered hwf hbad

/-- A handler that adds metadata and fails; the server's stream ends before the client hears of
it. -/
def exampleRefusal : List RefusalEvent :=
  [.exchange (.request 3), .exchange (.request 4), .exchange .requestEnd,
    .exchange (.addMetadata true (text "k") [1]), .exchange .handlerReturn, .serverEnd,
    .exchange .head, .clientEnd 0, .exchange .runStrand, .exchange (.runIoc 0)]

/-- The status of the handler arrives with its message. -/
theorem unary_refusal_example :
    ∃ x, (UnaryExchange.refusals Zlib.none).run (.start Zlib.none none (.new 4 0 0 [])
        ⟨[], []⟩ [7, 8] (Status.of .notFound (text "no")) []) exampleRefusal = some x ∧
      x.client.invoked.map (·.status) = [Status.of .notFound (text "no")] ∧
      RefusalDelivered Zlib.none [7, 8] (Status.of .notFound (text "no")) x := by
  have hrun : ((UnaryExchange.refusals Zlib.none).run (.start Zlib.none none (.new 4 0 0 [])
      ⟨[], []⟩ [7, 8] (Status.of .notFound (text "no")) []) exampleRefusal).map
        (fun x => x.client.invoked.map (·.status)) =
          some [Status.of .notFound (text "no")] := by decide
  obtain ⟨x, hx, hres⟩ := Option.map_eq_some_iff.1 hrun
  exact ⟨x, hx, hres, unary_refusal (m := 4) (by decide) (by decide) (by decide)
    (Or.inl (by decide)) ⟨exampleRefusal, hx⟩⟩

end Rpcpio.Stream
