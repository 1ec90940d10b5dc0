import Rpcpio.Stream.AnswerSide

/-!
# A client-streaming call between its two ends

A stream of requests and one response. The caller writes and declares the end whenever it likes, the
handler reads and returns whenever it likes, also before the end of the stream: from then on the
server ignores what arrives. No party cancels, no timer expires and no stream is reset. The stream
is a `RequestSide` that goes on as if the call had not been answered, and the reply an `AnswerSide`;
the closures of the two share the client's strand.
-/

set_option autoImplicit false

namespace Rpcpio.Stream

open Rpcpio.Library Rpcpio.Protocol Rpcpio.Client Rpcpio.Server

/-- A call between its ends: the client and the server, the messages the caller has written and
whether it has declared their end, the results of the handler's reads and of the handler, the two
directions, and whether the half-close has arrived. -/
structure ClientStreamingExchange where
  client : StreamingCall
  server : ClientStreamingCall
  written : List Bytes
  doneIssued : Bool
  reads : List PopResult
  returned : Option HandlerResult
  up : Wire
  halfClosed : Bool
  down : Wire
  deriving DecidableEq, Repr

/-- What can happen to a client-streaming call. -/
inductive ClientStreamingExchangeEvent where
  | write (p : Bytes)
  | writesDone
  | runStrand
  | runIoc (i : Nat)
  | pollUp (len : Nat)
  | deliverUp (n : Nat)
  | halfClose
  | handlerRead
  | addMetadata (trailing : Bool) (key value : Bytes)
  | handlerReturn (r : HandlerResult)
  | pollDown (len : Nat)
  | head
  | deliverDown (n : Nat)
  | trailer
  deriving DecidableEq, Repr

namespace ClientStreamingExchange

/-- The exchange of a call whose stream is accepted and whose request the server has started on. -/
def start (z : Zlib) (ctx : Option ClientContext) (id : StreamId) (c : ClientStreamingCallState)
    (req : Request) : ClientStreamingExchange where
  client := (StreamingCall.new (CallKind.clientStreaming.callState ctx)).submit (.accepted id)
  server := ({ ClientStreamingCall.new c with
    started := true
    registered := (c.start z req).2.2
    running := (c.start z req).2.2 } : ClientStreamingCall).after
      ((c.start z req).1, (c.start z req).2.1)
  written := []
  doneIssued := false
  reads := []
  returned := none
  up := .idle
  halfClosed := false
  down := .idle

/-- An event at the client. -/
def clientStep (x : ClientStreamingExchange) (e : CallEvent) : Option ClientStreamingExchange :=
  (x.client.step e).map fun c => { x with client := c }

/-- An event at the server. -/
def serverStep (z : Zlib) (x : ClientStreamingExchange) (e : ClientStreamingEvent) :
    Option ClientStreamingExchange :=
  (x.server.step z e).map fun s => { x with server := s }

/-- One event. -/
def step (z : Zlib) (x : ClientStreamingExchange) :
    ClientStreamingExchangeEvent → Option ClientStreamingExchange
  | .write p =>
      if x.doneIssued then none else { x with written := x.written ++ [p] }.clientStep (.write p)
  | .writesDone =>
      if x.doneIssued then none else { x with doneIssued := true }.clientStep .writesDone
  | .runStrand =>
      (x.client.step .runStrand).map fun c =>
        { x with client := c, up := x.up.resume (resumed x.client c) }
  | .runIoc i => x.clientStep (.runIoc i)
  | .pollUp len =>
      if x.up.canPoll len then
        x.client.call.writer.bind fun w =>
          { x with up := x.up.take (w.clientWriterGenerator len).2 }.clientStep (.poll len)
      else none
  | .deliverUp n =>
      if 0 < n && n ≤ x.up.inFlight.length && !x.halfClosed then
        { x with up := x.up.deliver n }.serverStep z (.data (x.up.inFlight.take n))
      else none
  | .halfClose =>
      if x.up.eof && x.up.inFlight.isEmpty && !x.halfClosed then
        { x with halfClosed := true }.serverStep z (.data [])
      else none
  | .handlerRead =>
      { x with reads := x.reads ++ x.server.call.readerImpl.read.2.toList }.serverStep z .read
  | .addMetadata trailing key value => x.serverStep z (.addMetadata trailing key value)
  | .handlerReturn r => { x with returned := some r }.serverStep z (.handlerReturn r)
  | .pollDown len =>
      if x.down.canPoll len then
        x.server.body.bind fun b =>
          { x with down := x.down.take (b.generate len).2.1 }.serverStep z (.poll len)
      else none
  | .head => (writtenHeads x.server.trace).head?.bind fun h => x.clientStep (.response h)
  | .deliverDown n =>
      if 0 < n && n ≤ x.down.inFlight.length then
        { x with down := x.down.deliver n }.clientStep (.data (x.down.inFlight.take n))
      else none
  | .trailer =>
      if x.down.eof && x.down.inFlight.isEmpty then
        (tracedTrailers x.server.trace).head?.bind fun h => x.clientStep (.trailers h)
      else none

/-- The client-streaming calls as a machine. -/
def machine (z : Zlib) : Machine ClientStreamingExchange ClientStreamingExchangeEvent := ⟨step z⟩

/-- The events of the connection and of the client's executors: what happens without the caller and
the handler doing anything. -/
def isTransport : ClientStreamingExchangeEvent → Bool
  | .runStrand | .runIoc _ | .pollUp _ | .deliverUp _ | .halfClose => true
  | .pollDown _ | .head | .deliverDown _ | .trailer => true
  | _ => false

/-- No event of the connection or the executors is left. -/
def Quiescent (z : Zlib) (x : ClientStreamingExchange) : Prop :=
  ∀ e, isTransport e = true → step z x e = none

/-- The messages an event writes. -/
def writes : ClientStreamingExchangeEvent → List Bytes
  | .write p => [p]
  | _ => []

/-- The results an event returns. -/
def returns : ClientStreamingExchangeEvent → List HandlerResult
  | .handlerReturn r => [r]
  | _ => []

/-- The stream of the requests, at a server that goes on listening. -/
def requestSide (x : ClientStreamingExchange) (listener : UploadServer) : RequestSide where
  client := x.client
  written := x.written
  doneIssued := x.doneIssued
  up := x.up
  halfClosed := x.halfClosed
  server := listener
  results := x.reads

/-- The reply. -/
def answerSide (x : ClientStreamingExchange) : AnswerSide where
  body := x.server.body
  trace := x.server.trace
  down := x.down
  client := x.client

/-! ## The invariant -/

/-- The stream goes on at a listener, which is the call state until the call is answered. -/
def Listens (m : Nat) (x : ClientStreamingExchange) : Prop :=
  ∃ listener, (x.requestSide listener).Sound m ∧
    (x.server.call.responded = false → listener = .clientStreaming x.server.call)

/-- What holds of a client-streaming call between two events. -/
structure ExchangeInvariant (m maxResponseSize k : Nat) (x : ClientStreamingExchange) : Prop where
  request : x.Listens m
  answer : x.answerSide.Sound k (x.returned.map (outcome maxResponseSize))
  registered : x.server.registered = true
  opened : x.server.call.closed = false
  limit : x.server.call.maxResponseSize = maxResponseSize
  running : x.server.running = x.returned.isNone
  responded : x.server.call.responded = x.returned.isSome

/-- The messages written so far and the response keep their limits. -/
structure Small (m maxResponseSize k : Nat) (x : ClientStreamingExchange) : Prop where
  written : ∀ p ∈ x.written, p.length ≤ m ∧ p.length < 2 ^ 32
  answer : AnswerSide.Small k (x.returned.map (outcome maxResponseSize))

/-- An upper bound on the events of the connection and the executors that are still to come. -/
def remaining (x : ClientStreamingExchange) : Nat :=
  (x.requestSide (.clientStreaming x.server.call)).remaining + x.answerSide.remaining

section Steps

variable {m maxResponseSize k : Nat} {z : Zlib} {x x' : ClientStreamingExchange}

theorem clientStep_some {e : CallEvent} (h : x.clientStep e = some x') :
    ∃ c, x.client.step e = some c ∧ x' = { x with client := c } := by
  obtain ⟨c, hc, rfl⟩ := Option.map_eq_some_iff.1 h
  exact ⟨c, hc, rfl⟩

theorem serverStep_some {e : ClientStreamingEvent} (h : x.serverStep z e = some x') :
    ∃ s, x.server.step z e = some s ∧ x' = { x with server := s } := by
  obtain ⟨s, hs, rfl⟩ := Option.map_eq_some_iff.1 h
  exact ⟨s, hs, rfl⟩

/-! ### The caller's end -/

theorem invariant_write {p : Bytes} (hx : ExchangeInvariant m maxResponseSize k x)
    (hs : Small m maxResponseSize k x') (h : step z x (.write p) = some x') :
    ExchangeInvariant m maxResponseSize k x' := by
  simp only [step, Option.ite_none_left_eq_some, Bool.not_eq_true] at h
  obtain ⟨hopen, h⟩ := h
  obtain ⟨c, hc, rfl⟩ := clientStep_some h
  obtain ⟨listener, hsound, hcall⟩ := hx.request
  exact { hx with
    request := ⟨listener, hsound.write hs.written hopen hc, hcall⟩
    answer := hx.answer.congr fun v hv => hv.upload rfl hc }

theorem invariant_writesDone (hx : ExchangeInvariant m maxResponseSize k x)
    (hs : Small m maxResponseSize k x) (h : step z x .writesDone = some x') :
    ExchangeInvariant m maxResponseSize k x' := by
  simp only [step, Option.ite_none_left_eq_some, Bool.not_eq_true] at h
  obtain ⟨hopen, h⟩ := h
  obtain ⟨c, hc, rfl⟩ := clientStep_some h
  obtain ⟨listener, hsound, hcall⟩ := hx.request
  exact { hx with
    request := ⟨listener, hsound.writesDone hs.written hopen hc, hcall⟩
    answer := hx.answer.congr fun v hv => hv.upload rfl hc }

theorem transport_pollUp {len : Nat} (hx : ExchangeInvariant m maxResponseSize k x)
    (hs : Small m maxResponseSize k x) (h : step z x (.pollUp len) = some x') :
    ExchangeInvariant m maxResponseSize k x' ∧ x'.remaining < x.remaining := by
  simp only [step, Option.ite_none_right_eq_some, Option.bind_eq_some_iff] at h
  obtain ⟨hpoll, w, hw, h⟩ := h
  obtain ⟨c, hc, rfl⟩ := clientStep_some h
  obtain ⟨listener, hsound, hcall⟩ := hx.request
  obtain ⟨hup, hless⟩ := hsound.poll hs.written hpoll hw hc
  refine ⟨{ hx with
    request := ⟨listener, hup, hcall⟩
    answer := hx.answer.congr fun v hv => hv.upload rfl hc },
      Nat.add_lt_add_of_lt_of_le hless (Nat.le_of_eq ?_)⟩
  simp only [StreamingCall.step, Option.ite_none_right_eq_some, Option.some.injEq] at hc
  obtain ⟨_, rfl⟩ := hc
  rfl

theorem transport_runStrand (hx : ExchangeInvariant m maxResponseSize k x)
    (hs : Small m maxResponseSize k x) (h : step z x .runStrand = some x') :
    ExchangeInvariant m maxResponseSize k x' ∧ x'.remaining < x.remaining := by
  obtain ⟨c, hc, rfl⟩ := Option.map_eq_some_iff.1 h
  obtain ⟨listener, hsound, hcall⟩ := hx.request
  obtain ⟨v, hat⟩ := hx.answer.client
  obtain ⟨hup, hle⟩ := hsound.runStrand hs.written hat.tasks hc
  obtain ⟨hdown, hless⟩ := hx.answer.runStrand hs.answer hc
  exact ⟨{ hx with request := ⟨listener, hup, hcall⟩, answer := hdown },
    Nat.add_lt_add_of_le_of_lt hle hless⟩

/-- An event of the answer at the client, with which the caller's own stream goes on. -/
theorem transport_answer {c : StreamingCall} {w : Wire}
    (hx : ExchangeInvariant m maxResponseSize k x) (hkeeps : Keeps x.client c)
    (h : (answerSide { x with client := c, down := w }).Sound k
        (x.returned.map (outcome maxResponseSize)) ∧
      (answerSide { x with client := c, down := w }).remaining < x.answerSide.remaining) :
    ExchangeInvariant m maxResponseSize k { x with client := c, down := w } ∧
      remaining { x with client := c, down := w } < x.remaining := by
  obtain ⟨listener, hsound, hcall⟩ := hx.request
  obtain ⟨hup, hsame⟩ := hsound.keeps hkeeps
  exact ⟨{ hx with request := ⟨listener, hup, hcall⟩, answer := h.1 },
    Nat.add_lt_add_of_le_of_lt hsame.le h.2⟩

/-! ### The server's end -/

/-- A chunk that parses is not replied to. -/
theorem onData_quiet (c : ClientStreamingCallState) (chunk : Bytes)
    (hok : c.responded = false → (c.parser.feed chunk).status = Status.okStatus) :
    (c.onData z chunk).2 = none ∧ (c.onData z chunk).1.responded = c.responded ∧
      (c.onData z chunk).1.closed = c.closed ∧
      (c.onData z chunk).1.maxResponseSize = c.maxResponseSize := by
  cases hresp : c.responded with
  | true => simp [ClientStreamingCallState.onData, hresp]
  | false =>
      have hfeed : (c.parser.feed chunk).status.isOk = true := by
        rw [hok hresp]
        rfl
      cases hemp : chunk.isEmpty with
      | true => simp [ClientStreamingCallState.onData, hresp, hemp]
      | false => simp [ClientStreamingCallState.onData, hresp, hemp, hfeed]

/-- Request data arrives that parses: the listener gets it, and the server if it still listens. -/
theorem ExchangeInvariant.data {chunk : Bytes} {w : Wire} {b : Bool}
    (hx : ExchangeInvariant m maxResponseSize k x)
    (h : serverStep z { x with up := w, halfClosed := b } (.data chunk) = some x')
    (hup : ∀ listener, (x.requestSide listener).Sound m →
      RequestSide.Sound m { x.requestSide listener with
        up := w, halfClosed := b, server := listener.onData z chunk } ∧
      RequestSide.remaining { x.requestSide listener with
        up := w, halfClosed := b, server := listener.onData z chunk } <
          (x.requestSide listener).remaining ∧
      (listener.parser.feed chunk).status = Status.okStatus) :
    ExchangeInvariant m maxResponseSize k x' ∧ x'.remaining < x.remaining := by
  obtain ⟨s, hstep, rfl⟩ := serverStep_some h
  simp only [ClientStreamingCall.step, hx.registered, if_true, Option.some.injEq] at hstep
  subst hstep
  obtain ⟨listener, hsound, hcall⟩ := hx.request
  obtain ⟨hnext, hless, hparse⟩ := hup listener hsound
  obtain ⟨hnone, hresp, hclosed, hlimit⟩ := onData_quiet (z := z) x.server.call chunk
    fun hopen => by
      rw [hcall hopen] at hparse
      exact hparse
  have hafter : x.server.after (x.server.call.onData z chunk) =
      { x.server with call := (x.server.call.onData z chunk).1 } := by
    simp [ClientStreamingCall.after, hnone, replyEffects]
  rw [hafter]
  refine ⟨{ hx with
    request := ⟨listener.onData z chunk, hnext, fun hopen => ?_⟩
    answer := hx.answer
    opened := hclosed.trans hx.opened
    limit := hlimit.trans hx.limit
    responded := hresp.trans hx.responded }, Nat.add_lt_add_of_lt_of_le hless le_rfl⟩
  rw [hcall (hresp.symm.trans hopen)]
  rfl

theorem transport_deliverUp {n : Nat} (hx : ExchangeInvariant m maxResponseSize k x)
    (hs : Small m maxResponseSize k x) (h : step z x (.deliverUp n) = some x') :
    ExchangeInvariant m maxResponseSize k x' ∧ x'.remaining < x.remaining := by
  simp only [step, Option.ite_none_right_eq_some] at h
  obtain ⟨hg, h⟩ := h
  refine hx.data (w := x.up.deliver n) (b := x.halfClosed) h fun listener hsound => ?_
  obtain ⟨hnext, hless⟩ := hsound.deliver z hs.written hg
  exact ⟨hnext, hless, hsound.parses hs.written n⟩

theorem transport_halfClose (hx : ExchangeInvariant m maxResponseSize k x)
    (hs : Small m maxResponseSize k x) (h : step z x .halfClose = some x') :
    ExchangeInvariant m maxResponseSize k x' ∧ x'.remaining < x.remaining := by
  simp only [step, Option.ite_none_right_eq_some] at h
  obtain ⟨hg, h⟩ := h
  refine hx.data (w := x.up) (b := true) h fun listener hsound => ?_
  obtain ⟨hnext, hless⟩ := hsound.halfClose z hs.written hg
  exact ⟨hnext, hless, by rw [StreamingFrameParser.feed_nil]⟩

/-- A handler that runs has not returned, and its call is not answered. -/
theorem ExchangeInvariant.unanswered (hx : ExchangeInvariant m maxResponseSize k x)
    (hrun : x.server.running = true) :
    x.returned = none ∧ x.server.call.responded = false := by
  have hnone : x.returned = none := by
    have h := hx.running
    rw [hrun] at h
    exact Option.isNone_iff_eq_none.1 h.symm
  exact ⟨hnone, by rw [hx.responded, hnone]; rfl⟩

theorem invariant_handlerRead (hx : ExchangeInvariant m maxResponseSize k x)
    (hs : Small m maxResponseSize k x) (h : step z x .handlerRead = some x') :
    ExchangeInvariant m maxResponseSize k x' := by
  obtain ⟨s, hstep, rfl⟩ := serverStep_some h
  simp only [ClientStreamingCall.step, Option.ite_none_right_eq_some, Option.some.injEq,
    Bool.and_eq_true] at hstep
  obtain ⟨⟨hrun, hpop⟩, rfl⟩ := hstep
  obtain ⟨listener, hsound, hcall⟩ := hx.request
  obtain rfl := hcall (hx.unanswered hrun).2
  exact { hx with
    request := ⟨_, hsound.read hs.written hpop, fun _ => rfl⟩
    answer := hx.answer }

theorem invariant_addMetadata {trailing : Bool} {key value : Bytes}
    (hx : ExchangeInvariant m maxResponseSize k x)
    (h : step z x (.addMetadata trailing key value) = some x') :
    ExchangeInvariant m maxResponseSize k x' := by
  obtain ⟨s, hstep, rfl⟩ := serverStep_some h
  simp only [ClientStreamingCall.step, Option.ite_none_right_eq_some, Option.some.injEq] at hstep
  obtain ⟨hrun, rfl⟩ := hstep
  obtain ⟨listener, hsound, hcall⟩ := hx.request
  obtain ⟨_, hresp⟩ := hx.unanswered hrun
  obtain rfl := hcall hresp
  refine { hx with
    request := ⟨.clientStreaming { x.server.call with
      ctx := x.server.call.ctx.addMetadata trailing key value },
      hsound.setServer rfl rfl ?_, fun _ => rfl⟩
    answer := hx.answer }
  simp [UploadServer.isListening, hresp]

theorem invariant_handlerReturn {r : HandlerResult} (hx : ExchangeInvariant m maxResponseSize k x)
    (hs : Small m maxResponseSize k x') (h : step z x (.handlerReturn r) = some x') :
    ExchangeInvariant m maxResponseSize k x' := by
  obtain ⟨s, hstep, rfl⟩ := serverStep_some h
  simp only [ClientStreamingCall.step, Option.ite_none_right_eq_some, Option.some.injEq] at hstep
  obtain ⟨hrun, rfl⟩ := hstep
  obtain ⟨hnone, hresp⟩ := hx.unanswered hrun
  have hsmall : AnswerSide.Small k (some (outcome maxResponseSize r)) := hs.answer
  obtain ⟨c', reply, hreturn, hresp', hclosed, hlimit, hcarries⟩ :=
    handlerReturned_carries (z := z) (r := r) hresp fun q hq => by
      refine (hsmall (outcome maxResponseSize r).1 q ?_).2
      rw [hx.limit] at hq
      rw [← hq]
  have hanswer := hx.answer
  rw [hnone, Option.map_none] at hanswer
  rw [hx.limit] at hcarries hlimit
  obtain ⟨listener, hsound, _⟩ := hx.request
  rw [hreturn]
  refine { hx with
    request := ⟨listener, hsound, fun hopen => absurd (hresp'.symm.trans hopen) (by simp)⟩
    answer := hanswer.reply hcarries
    registered := hx.registered
    opened := hclosed.trans hx.opened
    limit := hlimit
    running := rfl
    responded := hresp' }

theorem transport_pollDown {len : Nat} (hx : ExchangeInvariant m maxResponseSize k x)
    (h : step z x (.pollDown len) = some x') :
    ExchangeInvariant m maxResponseSize k x' ∧ x'.remaining < x.remaining := by
  simp only [step, Option.ite_none_right_eq_some, Option.bind_eq_some_iff] at h
  obtain ⟨hpoll, b, hbody, h⟩ := h
  obtain ⟨s, hstep, rfl⟩ := serverStep_some h
  simp only [ClientStreamingCall.step, hbody, hx.opened, Bool.false_eq_true, if_false,
    Option.some.injEq] at hstep
  subst hstep
  obtain ⟨hdown, hless⟩ := hx.answer.poll hpoll hbody
  exact ⟨{ hx with request := hx.request, answer := hdown },
    Nat.add_lt_add_of_le_of_lt le_rfl hless⟩

/-! ### Every event -/

/-- **Every event of the connection keeps the exchange**, and brings it closer to its rest. -/
theorem transport_step {e : ClientStreamingExchangeEvent} (he : isTransport e = true)
    (hx : ExchangeInvariant m maxResponseSize k x) (hs : Small m maxResponseSize k x)
    (h : step z x e = some x') :
    ExchangeInvariant m maxResponseSize k x' ∧ x'.remaining < x.remaining := by
  cases e with
  | runStrand => exact transport_runStrand hx hs h
  | runIoc i =>
      obtain ⟨c, hc, rfl⟩ := clientStep_some h
      exact transport_answer hx (keeps_runIoc hc) (hx.answer.runIoc hc)
  | pollUp len => exact transport_pollUp hx hs h
  | deliverUp n => exact transport_deliverUp hx hs h
  | halfClose => exact transport_halfClose hx hs h
  | pollDown len => exact transport_pollDown hx h
  | head =>
      obtain ⟨head, hhead, h⟩ := Option.bind_eq_some_iff.1 h
      obtain ⟨c, hc, rfl⟩ := clientStep_some h
      obtain ⟨hsound, hless, hkeeps⟩ := hx.answer.head hhead hc
      exact transport_answer hx hkeeps ⟨hsound, hless⟩
  | deliverDown n =>
      simp only [step, Option.ite_none_right_eq_some] at h
      obtain ⟨hg, h⟩ := h
      obtain ⟨c, hc, rfl⟩ := clientStep_some h
      exact transport_answer hx (keeps_data hc) (hx.answer.deliver hg hc)
  | trailer =>
      simp only [step, Option.ite_none_right_eq_some, Option.bind_eq_some_iff] at h
      obtain ⟨hg, t, ht, h⟩ := h
      obtain ⟨c, hc, rfl⟩ := clientStep_some h
      exact transport_answer hx (keeps_trailers hc) (hx.answer.trailer hg ht hc)
  | write | writesDone | handlerRead | addMetadata | handlerReturn => cases he

/-- **Every event keeps the exchange.** -/
theorem exchangeInvariant_step {e : ClientStreamingExchangeEvent}
    (hx : ExchangeInvariant m maxResponseSize k x) (hs : Small m maxResponseSize k x)
    (hs' : Small m maxResponseSize k x') (h : step z x e = some x') :
    ExchangeInvariant m maxResponseSize k x' := by
  cases e with
  | write p => exact invariant_write hx hs' h
  | writesDone => exact invariant_writesDone hx hs h
  | handlerRead => exact invariant_handlerRead hx hs h
  | addMetadata trailing key value => exact invariant_addMetadata hx h
  | handlerReturn r => exact invariant_handlerReturn hx hs' h
  | runStrand | runIoc | pollUp | deliverUp | halfClose | pollDown | head | deliverDown
  | trailer => exact (transport_step rfl hx hs h).1

/-- The logs hold what the events write and return. -/
theorem logs_step {e : ClientStreamingExchangeEvent} (h : step z x e = some x') :
    x'.written = x.written ++ writes e ∧ x'.returned = (returns e).getLast?.or x.returned := by
  have hserver {y : ClientStreamingExchange} {e : ClientStreamingEvent}
      (hy : y.serverStep z e = some x') :
      x'.written = y.written ∧ x'.returned = y.returned := by
    obtain ⟨s, _, rfl⟩ := serverStep_some hy
    exact ⟨rfl, rfl⟩
  have hclient {y : ClientStreamingExchange} {e : CallEvent} (hy : y.clientStep e = some x') :
      x'.written = y.written ∧ x'.returned = y.returned := by
    obtain ⟨c, _, rfl⟩ := clientStep_some hy
    exact ⟨rfl, rfl⟩
  cases e with
  | write p => simpa [writes, returns] using hclient (Option.ite_none_left_eq_some.1 h).2
  | writesDone => simpa [writes, returns] using hclient (Option.ite_none_left_eq_some.1 h).2
  | runStrand =>
      obtain ⟨c, _, rfl⟩ := Option.map_eq_some_iff.1 h
      simp [writes, returns]
  | runIoc i => simpa [writes, returns] using hclient h
  | pollUp len =>
      obtain ⟨w, _, h⟩ := Option.bind_eq_some_iff.1 (Option.ite_none_right_eq_some.1 h).2
      simpa [writes, returns] using hclient h
  | deliverUp n => simpa [writes, returns] using hserver (Option.ite_none_right_eq_some.1 h).2
  | halfClose => simpa [writes, returns] using hserver (Option.ite_none_right_eq_some.1 h).2
  | handlerRead => simpa [writes, returns] using hserver h
  | addMetadata trailing key value => simpa [writes, returns] using hserver h
  | handlerReturn r => simpa [writes, returns] using hserver h
  | pollDown len =>
      obtain ⟨b, _, h⟩ := Option.bind_eq_some_iff.1 (Option.ite_none_right_eq_some.1 h).2
      simpa [writes, returns] using hserver h
  | head =>
      obtain ⟨t, _, h⟩ := Option.bind_eq_some_iff.1 h
      simpa [writes, returns] using hclient h
  | deliverDown n => simpa [writes, returns] using hclient (Option.ite_none_right_eq_some.1 h).2
  | trailer =>
      obtain ⟨t, _, h⟩ := Option.bind_eq_some_iff.1 (Option.ite_none_right_eq_some.1 h).2
      simpa [writes, returns] using hclient h

/-- The limits that an event keeps. -/
def Allows (m maxResponseSize k : Nat) (e : ClientStreamingExchangeEvent) : Prop :=
  (∀ p ∈ writes e, p.length ≤ m ∧ p.length < 2 ^ 32) ∧
    ∀ r ∈ returns e, AnswerSide.Small k (some (outcome maxResponseSize r))

theorem Small.allowed {e : ClientStreamingExchangeEvent} (hs : Small m maxResponseSize k x)
    (he : Allows m maxResponseSize k e) (h : step z x e = some x') :
    Small m maxResponseSize k x' := by
  obtain ⟨hw, hr⟩ := logs_step h
  refine ⟨fun p hp => ?_, ?_⟩
  · rw [hw] at hp
    exact (List.mem_append.1 hp).elim (hs.written p) (he.1 p)
  · rw [hr]
    cases hlast : (returns e).getLast? with
    | none => exact hs.answer
    | some r => exact he.2 r (List.mem_of_getLast? hlast)

end Steps

/-! ## What the two ends may rely on -/

/-- What the two ends of a call may rely on, in every state: the handler reads what the caller
wrote, and the end only once it was declared; the caller learns no response but the handler's, and a
final status only together with the response, as the outcome of the handler's result. -/
structure Exchanged (maxResponseSize : Nat) (x : ClientStreamingExchange) : Prop where
  handlerReads : x.reads <+: x.written.map .message ++
    if x.doneIssued then List.replicate x.reads.length .eos else []
  learned : ∃ w, x.client.call.writer = some w ∧
    (∀ q, singleResponse w = some q →
      ∃ s, x.returned.map (outcome maxResponseSize) = some (s, some q)) ∧
    ∀ s, w.finish = some s →
      x.returned.map (outcome maxResponseSize) = some (s, singleResponse w)

/-- What a call may rely on wherever it stands: the events of the connection and the executors come
to a rest; at a rest a handler that still runs was given, or finds in its queue, all that was
written, and the caller has the outcome of one that has returned. -/
structure Rests (z : Zlib) (maxResponseSize : Nat) (x : ClientStreamingExchange) : Prop where
  bounded : ∃ n, ∀ es y, (∀ e ∈ es, isTransport e = true) → (machine z).run x es = some y →
    es.length ≤ n
  rests : ∃ es y, (∀ e ∈ es, isTransport e = true) ∧ (machine z).run x es = some y ∧
    Quiescent z y
  handler : Quiescent z x → x.returned = none → Arrived x.server.call.readerImpl.queue x.written
    (if x.doneIssued then some .eos else none) x.reads
  caller : Quiescent z x → ∃ w, x.client.call.writer = some w ∧
    w.finish = (x.returned.map (outcome maxResponseSize)).map Prod.fst ∧
    singleResponse w = (x.returned.map (outcome maxResponseSize)).bind Prod.snd

section Ends

variable {m maxResponseSize k : Nat} {z : Zlib} {x : ClientStreamingExchange}

theorem ExchangeInvariant.exchanged (hx : ExchangeInvariant m maxResponseSize k x)
    (hs : Small m maxResponseSize k x) : Exchanged maxResponseSize x := by
  obtain ⟨listener, hsound, _⟩ := hx.request
  exact ⟨hsound.reads hs.written, hx.answer.learned hs.answer⟩

theorem Quiescent.strand (hq : Quiescent z x) : x.client.strand = [] := by
  cases hs : x.client.strand with
  | nil => rfl
  | cons t rest =>
      have hnone := hq .runStrand rfl
      simp [step, StreamingCall.step, hs] at hnone

/-- At rest the request is idle. -/
theorem quiescent_request (hx : ExchangeInvariant m maxResponseSize k x) (hq : Quiescent z x)
    (listener : UploadServer) : (x.requestSide listener).Idle where
  strand := hq.strand
  generator hpoll := by
    have hnone := hq (.pollUp 1) rfl
    have hpoll' : x.up.canPoll 1 = true := hpoll
    show x.client.step (.poll 1) = none
    cases hw : x.client.call.writer with
    | none => simp [StreamingCall.step, hw]
    | some w => simpa [step, hpoll', hw, clientStep] using hnone
  bytes hne := by
    have hnone := hq (.deliverUp 1) rfl
    have hpos : 0 < x.up.inFlight.length := List.length_pos_iff.2 hne
    show x.halfClosed = true
    simpa [step, Nat.succ_le_iff.2 hpos, serverStep, ClientStreamingCall.step, hx.registered]
      using hnone
  halfClose heof hwire := by
    have hnone := hq .halfClose rfl
    have heof' : x.up.eof = true := heof
    have hwire' : x.up.inFlight = [] := hwire
    show x.halfClosed = true
    simpa [step, heof', hwire', serverStep, ClientStreamingCall.step, hx.registered] using hnone

/-- At rest the answer is idle. -/
theorem quiescent_answer (hx : ExchangeInvariant m maxResponseSize k x) (hq : Quiescent z x) :
    x.answerSide.Idle where
  strand := hq.strand
  ioc := by
    have hnone := hq (.runIoc 0) rfl
    show x.client.ioc = []
    cases hioc : x.client.ioc with
    | nil => rfl
    | cons t rest => simp [step, clientStep, StreamingCall.step, hioc] at hnone
  generator hsome := by
    have hnone := hq (.pollDown 1) rfl
    obtain ⟨b, hb⟩ := Option.isSome_iff_exists.1 hsome
    have hb' : x.server.body = some b := hb
    show x.down.canPoll 1 = false
    cases hc : x.down.canPoll 1 with
    | false => rfl
    | true => simp [step, hc, hb', serverStep, ClientStreamingCall.step, hx.opened] at hnone
  head head hhead := by
    have hnone := hq .head rfl
    have hfirst : (writtenHeads x.server.trace).head? = some head := hhead
    simpa [step, hfirst, clientStep, answerSide] using hnone
  bytes hne := by
    have hnone := hq (.deliverDown 1) rfl
    have hpos : 0 < x.down.inFlight.length := List.length_pos_iff.2 hne
    simpa [step, Nat.succ_le_iff.2 hpos, clientStep, answerSide] using hnone
  trailers heof hwire t ht := by
    have hnone := hq .trailer rfl
    have heof' : x.down.eof = true := heof
    have hwire' : x.down.inFlight = [] := hwire
    have ht' : (tracedTrailers x.server.trace).head? = some t := ht
    simpa [step, heof', hwire', ht', clientStep, answerSide] using hnone

/-- The events of the connection write and return nothing. -/
theorem Small.transport {e : ClientStreamingExchangeEvent} {x' : ClientStreamingExchange}
    (he : isTransport e = true) (hs : Small m maxResponseSize k x) (h : step z x e = some x') :
    Small m maxResponseSize k x' := by
  refine hs.allowed ?_ h
  cases e with
  | write | writesDone | handlerRead | addMetadata | handlerReturn => cases he
  | runStrand | runIoc | pollUp | deliverUp | halfClose | pollDown | head | deliverDown
  | trailer => exact ⟨nofun, nofun⟩

theorem ExchangeInvariant.rests (hx : ExchangeInvariant m maxResponseSize k x)
    (hs : Small m maxResponseSize k x) : Rests z maxResponseSize x := by
  have hstep : ∀ a e b, ExchangeInvariant m maxResponseSize k a ∧ Small m maxResponseSize k a →
      isTransport e = true → (machine z).step a e = some b →
      ExchangeInvariant m maxResponseSize k b ∧ Small m maxResponseSize k b :=
    fun a e b ha he h => ⟨(transport_step he ha.1 ha.2 h).1, ha.2.transport he h⟩
  have hdec : ∀ a e b, ExchangeInvariant m maxResponseSize k a ∧ Small m maxResponseSize k a →
      isTransport e = true → (machine z).step a e = some b → b.remaining < a.remaining :=
    fun a e b ha he h => (transport_step he ha.1 ha.2 h).2
  refine ⟨⟨x.remaining, fun es y hes hrun =>
      Machine.run_length_le_of hstep hdec es x y ⟨hx, hs⟩ hes hrun⟩,
    Machine.exists_quiescent_of hstep hdec x ⟨hx, hs⟩, fun hq hnone => ?_,
    fun hq => hx.answer.settled hs.answer (quiescent_answer hx hq)⟩
  obtain ⟨listener, hsound, hcall⟩ := hx.request
  obtain rfl := hcall (by rw [hx.responded, hnone]; rfl)
  exact hsound.settled hs.written (quiescent_request hx hq _)

end Ends

/-! ## The start -/

/-- A call whose handler is spawned has not replied. -/
theorem start_registered {z : Zlib} {c : ClientStreamingCallState} {req : Request}
    (h : (c.start z req).2.2 = true) : ∃ serverCtx timer,
      c.start z req = ({ c with ctx := serverCtx, timer := timer }, none, true) := by
  simp only [ClientStreamingCallState.start] at h ⊢
  split at h
  · cases h
  · rename_i hok
    rw [if_neg hok]
    exact ⟨_, _, rfl⟩

theorem exchangeInvariant_start {z : Zlib} (ctx : Option ClientContext) (id : StreamId)
    {m maxMetadataSize maxResponseSize : Nat} {peerIdentity : Bytes} {req : Request}
    (hreg : ((ClientStreamingCallState.new m maxMetadataSize maxResponseSize peerIdentity).start z
      req).2.2 = true) :
    ExchangeInvariant m maxResponseSize (maxReceiveMessageSize ctx) (start z ctx id
      (.new m maxMetadataSize maxResponseSize peerIdentity) req) := by
  obtain ⟨serverCtx, timer, hstart⟩ := start_registered hreg
  have hkind : CallKind.clientStreaming ≠ .serverStreaming := by decide
  have hup := (RequestSide.sound_start hkind ctx id m maxMetadataSize maxResponseSize
    peerIdentity).setServer (s := .clientStreaming { ClientStreamingCallState.new m maxMetadataSize
      maxResponseSize peerIdentity with ctx := serverCtx, timer := timer }) rfl rfl rfl
  rw [start, hstart]
  refine ⟨⟨_, hup, fun _ => rfl⟩, .waiting ⟨rfl, rfl, rfl, ?_⟩, rfl, rfl, rfl, rfl, rfl⟩
  exact ⟨rfl, rfl, rfl, rfl, rfl, rfl, rfl, rfl, rfl, nofun, rfl, rfl, rfl, rfl⟩

/-- What `client_streaming_exchange` says of every run of a call that the server has begun. -/
theorem exchange_run {z : Zlib} {ctx : Option ClientContext} {id : StreamId}
    {maxMessageSize maxMetadataSize maxResponseSize : Nat} {peerIdentity : Bytes} {req : Request}
    (hreg : ((ClientStreamingCallState.new maxMessageSize maxMetadataSize maxResponseSize
      peerIdentity).start z req).2.2 = true) (es : List ClientStreamingExchangeEvent)
    (x : ClientStreamingExchange)
    (hup : ∀ p ∈ es.flatMap writes, p.length ≤ maxMessageSize ∧ p.length < 2 ^ 32)
    (hdown : ∀ r ∈ es.flatMap returns, ∀ q ∈ (outcome maxResponseSize r).2,
      q.length ≤ maxReceiveMessageSize ctx ∧ q.length < 2 ^ 32)
    (h : (machine z).run (start z ctx id
      (.new maxMessageSize maxMetadataSize maxResponseSize peerIdentity) req) es = some x) :
    x.written = es.flatMap writes ∧ x.returned = (es.flatMap returns).getLast? ∧
      Exchanged maxResponseSize x ∧ Rests z maxResponseSize x := by
  have hwritten : x.written = es.flatMap writes := by
    have hlog := Machine.run_ledger (f := written) (g := writes)
      (fun _ _ _ hs => (logs_step hs).1) h
    simpa [start] using hlog
  have hreturned : x.returned = (es.flatMap returns).getLast? := by
    have hlog := Machine.run_getLast? (f := returned) (g := returns)
      (fun _ _ _ hs => (logs_step hs).2) h
    simpa [start] using hlog
  -- the events of the run keep the limits
  have hallows : (machine z).Along (fun _ => Allows maxMessageSize maxResponseSize
      (maxReceiveMessageSize ctx)) (start z ctx id
        (.new maxMessageSize maxMetadataSize maxResponseSize peerIdentity) req) es := by
    refine Machine.along_of_forall fun pre e post t hes _ => ?_
    have hmem : e ∈ es := by simp [hes]
    refine ⟨fun p hp => hup p (List.mem_flatMap.2 ⟨e, hmem, hp⟩), fun r hr s q hq => ?_⟩
    exact hdown r (List.mem_flatMap.2 ⟨e, hmem, hr⟩) q (by rw [Option.some.inj hq]; rfl)
  obtain ⟨hx, hs⟩ := Machine.run_invariant_along
    (I := fun y => ExchangeInvariant maxMessageSize maxResponseSize (maxReceiveMessageSize ctx) y ∧
      Small maxMessageSize maxResponseSize (maxReceiveMessageSize ctx) y)
    (fun a e b ha he hstep =>
      have hsmall := ha.2.allowed he hstep
      ⟨exchangeInvariant_step ha.1 ha.2 hsmall hstep, hsmall⟩) es _ x
    ⟨exchangeInvariant_start ctx id hreg, nofun, nofun⟩ hallows h
  exact ⟨hwritten, hreturned, hx.exchanged hs, hx.rests hs⟩

/-- **A client-streaming call from end to end.** In every state a call can reach, however the
writes, the reads and the return of the handler are interleaved with the closures, polls and
deliveries: the handler reads a prefix of what the caller has written, in order, and then its end;
the caller learns the outcome of the handler's result and nothing else; and the connection comes to
a rest, at which all of it has arrived. -/
theorem client_streaming_exchange (z : Zlib) (ctx : Option ClientContext) (id : StreamId)
    (maxMessageSize maxMetadataSize maxResponseSize : Nat) (peerIdentity : Bytes) (req : Request)
    (hreg : ((ClientStreamingCallState.new maxMessageSize maxMetadataSize maxResponseSize
      peerIdentity).start z req).2.2 = true) {es : List ClientStreamingExchangeEvent}
    {x : ClientStreamingExchange}
    (hup : ∀ p ∈ es.flatMap writes, p.length ≤ maxMessageSize ∧ p.length < 2 ^ 32)
    (hdown : ∀ r ∈ es.flatMap returns, ∀ q ∈ (outcome maxResponseSize r).2,
      q.length ≤ maxReceiveMessageSize ctx ∧ q.length < 2 ^ 32)
    (h : (machine z).run (start z ctx id
      (.new maxMessageSize maxMetadataSize maxResponseSize peerIdentity) req) es = some x) :
    x.written = es.flatMap writes ∧ x.returned = (es.flatMap returns).getLast? ∧
      Exchanged maxResponseSize x ∧ Rests z maxResponseSize x :=
  exchange_run hreg es x hup hdown h

/-- The handler answers after the first of two messages, while the second is on its way. -/
def exampleSum : List ClientStreamingExchangeEvent :=
  [.write [7], .runStrand, .pollUp 9, .deliverUp 2, .deliverUp 4, .handlerRead, .write [8],
    .runStrand, .pollUp 9, .handlerReturn ⟨some Status.okStatus, [9]⟩, .deliverUp 3, .pollDown 4,
    .head, .pollDown 9, .deliverDown 6, .pollDown 1, .trailer, .writesDone, .runStrand, .runStrand,
    .deliverUp 3]

theorem client_streaming_exchange_example :
    ∃ x, (machine Zlib.none).run (start Zlib.none none 1 (.new 100 100 100 []) ⟨[], []⟩)
        exampleSum = some x ∧
      x.reads = [.message [7]] ∧
      x.client.call.writer.map (fun w => (w.finish, singleResponse w)) =
        some (some Status.okStatus, some [9]) ∧
      x.written = [[7], [8]] ∧ x.returned = some ⟨some Status.okStatus, [9]⟩ ∧
      Exchanged 100 x ∧ Rests Zlib.none 100 x := by
  have hrun : ((machine Zlib.none).run (start Zlib.none none 1 (.new 100 100 100 []) ⟨[], []⟩)
      exampleSum).map (fun x => (x.reads,
        x.client.call.writer.map fun w => (w.finish, singleResponse w))) =
      some ([.message [7]], some (some Status.okStatus, some [9])) := by decide +kernel
  obtain ⟨x, hx, hres⟩ := Option.map_eq_some_iff.1 hrun
  obtain ⟨hreads, hanswer⟩ := Prod.mk.inj hres
  exact ⟨x, hx, hreads, hanswer, client_streaming_exchange Zlib.none none 1 100 100 100 []
    ⟨[], []⟩ (by decide) (by decide) (by decide) hx⟩

end ClientStreamingExchange

end Rpcpio.Stream
