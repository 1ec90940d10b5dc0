import Rpcpio.Stream.ResponseSide
import Rpcpio.Stream.UnaryRoundTrip

/-!
# A server-streaming call between its two ends

One request and a stream of responses. The request message reaches `ServerStreamingCallState` in
chunks of any size, its end writes the head and runs the handler, the handler writes and returns
whenever it likes, and the caller reads whenever it likes. No party cancels, no timer expires and no
stream is reset. The server first collects the request (`Collecting`) and then serves it
(`Serving`); the response is a `ResponseSide` from the start, of which nothing is written before.
-/

set_option autoImplicit false

namespace Rpcpio.Stream

open Rpcpio.Library Rpcpio.Protocol Rpcpio.Client Rpcpio.Server

/-- A call between its ends: the client and the server, the request bytes in flight and whether
their end has arrived, the requests the handler was invoked with, the messages it has written and
the status it has returned, the direction of the response, and the results of the caller's reads. -/
structure ServerStreamingExchange where
  client : StreamingCall
  server : ServerStreamingCall
  upstream : Bytes
  requestEnded : Bool
  invocations : List Bytes
  answers : List Bytes
  returned : Option Status
  down : Wire
  results : List PopResult
  deriving DecidableEq, Repr

/-- What can happen to a server-streaming call. -/
inductive ServerStreamingExchangeEvent where
  | request (n : Nat)
  | requestEnd
  | answer (p : Bytes)
  | addMetadata (trailing : Bool) (key value : Bytes)
  | handlerReturn (status : Option Status)
  | pollDown (len : Nat)
  | head
  | deliverDown (n : Nat)
  | trailer
  | runStrand
  | read
  deriving DecidableEq, Repr

namespace ServerStreamingExchange

/-- The exchange of a call whose stream is accepted and whose request the server has started on. -/
def start (z : Zlib) (ctx : Option ClientContext) (id : StreamId) (c : ServerStreamingCallState)
    (req : Request) (request : Bytes) : ServerStreamingExchange where
  client := (StreamingCall.new (CallKind.serverStreaming.callState ctx)).submit (.accepted id)
  server := ({ ServerStreamingCall.new c with
    started := true
    registered := (c.start z req).2.2 } : ServerStreamingCall).after
      ((c.start z req).1, (c.start z req).2.1)
  upstream := (encodeFrame 0 request).getD []
  requestEnded := false
  invocations := []
  answers := []
  returned := none
  down := .idle
  results := []

/-- An event at the client. -/
def clientStep (x : ServerStreamingExchange) (e : CallEvent) : Option ServerStreamingExchange :=
  (x.client.step e).map fun c => { x with client := c }

/-- The exchange after an event at the server, which may wake the generator. -/
def withServer (x : ServerStreamingExchange) (s : ServerStreamingCall) : ServerStreamingExchange :=
  { x with server := s, down := x.down.resume (responseResumed x.server.trace s.trace) }

/-- An event at the server. -/
def serverStep (z : Zlib) (x : ServerStreamingExchange) (e : ServerStreamingEvent) :
    Option ServerStreamingExchange :=
  (x.server.step z e).map x.withServer

/-- A chunk of request data arrives at the server; an empty one is the end of the request. -/
def serverData (z : Zlib) (x : ServerStreamingExchange) (chunk : Bytes) :
    Option ServerStreamingExchange :=
  { x with
    invocations := x.invocations ++ (x.server.call.onData z chunk).2.2.toList }.serverStep z
      (.data chunk)

/-- One event. -/
def step (z : Zlib) (x : ServerStreamingExchange) :
    ServerStreamingExchangeEvent → Option ServerStreamingExchange
  | .request n =>
      if 0 < n && n ≤ x.upstream.length then
        { x with upstream := x.upstream.drop n }.serverData z (x.upstream.take n)
      else none
  | .requestEnd =>
      if x.upstream.isEmpty && !x.requestEnded then
        { x with requestEnded := true }.serverData z []
      else none
  | .answer p =>
      if x.server.handlers.isEmpty then none
      else { x with answers := x.answers ++ [p] }.serverStep z (.perform (.write p))
  | .addMetadata trailing key value =>
      if x.server.handlers.isEmpty then none
      else x.serverStep z (.addMetadata trailing key value)
  | .handlerReturn status =>
      { x with returned := some (handlerStatus status) }.serverStep z (.handlerReturn 0 status)
  | .pollDown len =>
      if x.down.canPoll len then
        (x.serverStep z (.poll len)).map fun y =>
          { y with down := y.down.take (x.server.call.writerImpl.generate len).2.1 }
      else none
  | .head => (writtenHeads x.server.trace).head?.bind fun h => x.clientStep (.response h)
  | .deliverDown n =>
      if 0 < n && n ≤ x.down.inFlight.length then
        { x with down := x.down.deliver n }.clientStep (.data (x.down.inFlight.take n))
      else none
  | .trailer =>
      if x.down.eof && x.down.inFlight.isEmpty then
        (tracedTrailers x.server.trace).head?.bind fun h => x.clientStep (.trailers h)
      else none
  | .runStrand => x.clientStep .runStrand
  | .read =>
      x.client.call.reader.bind fun r =>
        { x with results := x.results ++ r.read.2.toList }.clientStep .read

/-- The server-streaming calls as a machine. -/
def machine (z : Zlib) : Machine ServerStreamingExchange ServerStreamingExchangeEvent := ⟨step z⟩

/-- The events of the connection and of the client's strand: what happens without the handler and
the caller doing anything. -/
def isTransport : ServerStreamingExchangeEvent → Bool
  | .request _ | .requestEnd | .pollDown _ | .head | .deliverDown _ | .trailer | .runStrand => true
  | _ => false

/-- No event of the connection or the strand is left. -/
def Quiescent (z : Zlib) (x : ServerStreamingExchange) : Prop :=
  ∀ e, isTransport e = true → step z x e = none

/-- The messages an event writes. -/
def replies : ServerStreamingExchangeEvent → List Bytes
  | .answer p => [p]
  | _ => []

/-- The status an event returns. -/
def returns : ServerStreamingExchangeEvent → List Status
  | .handlerReturn status => [handlerStatus status]
  | _ => []

/-- The response of the call. -/
def responseSide (x : ServerStreamingExchange) : ResponseSide where
  writer := x.server.call.writerImpl
  trace := x.server.trace
  answers := x.answers
  returned := x.returned
  down := x.down
  client := x.client
  results := x.results

/-! ## The invariant -/

/-- The request is arriving. -/
structure Collecting (m : Nat) (r : Bytes) (x : ServerStreamingExchange) : Prop where
  ended : x.requestEnded = false
  registered : x.server.registered = true
  spawned : x.server.spawned = false
  responded : x.server.call.responded = false
  handlers : x.server.handlers = []
  invocations : x.invocations = []
  answers : x.answers = []
  trace : x.server.trace = []
  unfinished : x.server.call.writerImpl.finished = false
  reads : ∃ received, received ++ x.upstream = frameOf r ∧
    FrameDecoder.Reads m ((serverFormat m).scan (.pending []) received) x.server.call.decoder

/-- The handler was invoked with the request, and the head was written. -/
structure Serving (r : Bytes) (x : ServerStreamingExchange) : Prop where
  ended : x.requestEnded = true
  upstream : x.upstream = []
  spawned : x.server.spawned = true
  handlers : x.server.handlers = if x.server.call.writerImpl.finished then [] else [r]
  invocations : x.invocations = [r]
  head : (writtenHeads x.server.trace).length = 1

/-- What holds of a server-streaming call between two events. -/
structure ExchangeInvariant (m maxResponseSize k : Nat) (r : Bytes) (x : ServerStreamingExchange) :
    Prop where
  response : x.responseSide.Sound maxResponseSize k
  opened : x.server.call.closed = false
  phase : Collecting m r x ∨ Serving r x

/-- An upper bound on the events of the connection and the strand that are still to come. -/
def remaining (x : ServerStreamingExchange) : Nat :=
  x.upstream.length + (!x.requestEnded).toNat + x.responseSide.toDownload.remaining

section Steps

variable {m maxResponseSize k : Nat} {r : Bytes} {z : Zlib} {x x' : ServerStreamingExchange}

theorem clientStep_some {e : CallEvent} (h : x.clientStep e = some x') :
    ∃ c, x.client.step e = some c ∧ x' = { x with client := c } := by
  obtain ⟨c, hc, rfl⟩ := Option.map_eq_some_iff.1 h
  exact ⟨c, hc, rfl⟩

theorem serverStep_some {e : ServerStreamingEvent} (h : x.serverStep z e = some x') :
    ∃ s, x.server.step z e = some s ∧ x' = x.withServer s := by
  obtain ⟨s, hs, rfl⟩ := Option.map_eq_some_iff.1 h
  exact ⟨s, hs, rfl⟩

/-- The response side after an event at the server: its writer, and its calls on the response. -/
theorem responseSide_withServer (x : ServerStreamingExchange) {s : ServerStreamingCall}
    (calls : List ResponseCall) (ht : s.trace = x.server.trace ++ calls.map .call) :
    (x.withServer s).responseSide = x.responseSide.after s.call.writerImpl calls := by
  simp only [responseSide, withServer, ResponseSide.after, ht, responseResumed_append]

/-- A chunk of the request arrives. -/
theorem transport_request {n : Nat} (hwf : (serverFormat m).WellFormed (messageFrame 0 r))
    (hx : ExchangeInvariant m maxResponseSize k r x) (h : step z x (.request n) = some x') :
    ExchangeInvariant m maxResponseSize k r x' ∧ x'.remaining < x.remaining := by
  simp only [step, Option.ite_none_right_eq_some, Bool.and_eq_true, decide_eq_true_eq] at h
  obtain ⟨⟨hn, hle⟩, h⟩ := h
  rcases hx.phase with hc | hv
  · obtain ⟨received, hall, hreads⟩ := hc.reads
    have hne : (x.upstream.take n).isEmpty = false := by
      rw [List.isEmpty_eq_false_iff]
      intro hnil
      have hlen := congrArg List.length hnil
      rw [List.length_take, List.length_nil] at hlen
      omega
    have hfed := FrameDecoder.reads_feed hreads (x.upstream.take n)
    have hcut : received ++ x.upstream.take n ++ x.upstream.drop n = frameOf r := by
      rw [List.append_assoc, List.take_append_drop, hall]
    have hok := (FrameDecoder.reads_frame hwf hcut hfed).1
    have hdata : x.server.call.onData z (x.upstream.take n) =
        ({ x.server.call with decoder := x.server.call.decoder.feed (x.upstream.take n) }, [],
          none) := by
      simp [ServerStreamingCallState.onData, hc.responded, hne, hok]
    have hserver : x.server.step z (.data (x.upstream.take n)) = some { x.server with
        call := { x.server.call with
          decoder := x.server.call.decoder.feed (x.upstream.take n) } } := by
      simp [ServerStreamingCall.step, hc.registered, hdata, ServerStreamingCall.after]
    simp only [serverData, serverStep, hserver, hdata, Option.map_some, withServer,
      responseResumed_self, Wire.resume_false, Option.toList_none, List.append_nil,
      Option.some.injEq] at h
    subst h
    refine ⟨⟨⟨hx.response.download, hx.response.returned⟩, hx.opened,
      Or.inl { hc with reads := ⟨_, hcut, hfed⟩ }⟩, ?_⟩
    simp only [remaining, List.length_drop]
    exact Nat.add_lt_add_right (Nat.add_lt_add_right (by omega) _) _
  · rw [hv.upstream, List.length_nil] at hle
    omega

/-- The request ends: the head is written, and the handler is invoked with the request. -/
theorem transport_requestEnd (hwf : (serverFormat m).WellFormed (messageFrame 0 r))
    (hx : ExchangeInvariant m maxResponseSize k r x) (h : step z x .requestEnd = some x') :
    ExchangeInvariant m maxResponseSize k r x' ∧ x'.remaining < x.remaining := by
  simp only [step, Option.ite_none_right_eq_some, Bool.and_eq_true, List.isEmpty_iff,
    Bool.not_eq_true'] at h
  obtain ⟨⟨hnil, hended⟩, h⟩ := h
  rcases hx.phase with hc | hv
  · obtain ⟨received, hall, hreads⟩ := hc.reads
    rw [hnil] at hall
    obtain ⟨hdone, hpay, _⟩ := (FrameDecoder.reads_frame hwf hall hreads).2 rfl
    have hmark := FrameDecoder.markEos_of_final (d := x.server.call.decoder)
      (Or.inr (by simp [FrameDecoder.isDone, hdone]))
    have hdata : x.server.call.onData z [] =
        ({ x.server.call with responded := true, timer := x.server.call.timer.cancel },
          [.writeHead 200 (streamHead z x.server.call.ctx), .endWith], some r) := by
      simp [ServerStreamingCallState.onData, hc.responded, hmark,
        ServerStreamingCallState.onRequestEnd, FrameDecoder.isError, FrameDecoder.isDone, hdone,
        ServerStreamingCallState.sendHeaders, hpay, messageFrame]
    have hserver : x.server.step z (.data []) = some { x.server with
        call := { x.server.call with responded := true, timer := x.server.call.timer.cancel }
        spawned := true
        handlers := [r]
        trace := [.call (.writeHead 200 (streamHead z x.server.call.ctx)), .call .endWith] } := by
      simp [ServerStreamingCall.step, hc.registered, hdata, ServerStreamingCall.after, hc.handlers,
        hc.trace]
    have hquiet : responseResumed x.server.trace
        [.call (.writeHead 200 (streamHead z x.server.call.ctx)), .call .endWith] = false := by
      rw [hc.trace]
      rfl
    simp only [serverData, serverStep, hserver, hdata, Option.map_some, withServer, hquiet,
      Wire.resume_false, hc.invocations, Option.toList_some, List.nil_append,
      Option.some.injEq] at h
    subst h
    obtain ⟨hsound, hsame⟩ := hx.response.writeHead (z := z) hc.trace x.server.call.ctx
    refine ⟨⟨hsound, hx.opened, Or.inr ⟨rfl, hnil, rfl, ?_, rfl, rfl⟩⟩, ?_⟩
    · have hfin : x.server.call.writerImpl.finished = false := hc.unfinished
      simp [hfin]
    · simp only [remaining, hended, Bool.not_true, Bool.not_false, Bool.toNat_true,
        Bool.toNat_false]
      exact Nat.add_lt_add_of_lt_of_le (by omega) hsame.le
  · rw [hv.ended] at hended
    cases hended

/-- A handler that runs was invoked with the request, and its writer is not finished. -/
theorem ExchangeInvariant.running (hx : ExchangeInvariant m maxResponseSize k r x)
    (hrun : x.server.handlers ≠ []) :
    Serving r x ∧ x.server.handlers = [r] ∧ x.server.call.writerImpl.finished = false := by
  rcases hx.phase with hc | hv
  · exact absurd hc.handlers hrun
  · have hhandlers := hv.handlers
    cases hfin : x.server.call.writerImpl.finished with
    | true => exact absurd (hhandlers.trans (if_pos hfin)) hrun
    | false => exact ⟨hv, hhandlers.trans (if_neg (by simp [hfin])), rfl⟩

theorem invariant_answer {p : Bytes} (hx : ExchangeInvariant m maxResponseSize k r x)
    (hs : x'.responseSide.Small maxResponseSize k) (h : step z x (.answer p) = some x') :
    ExchangeInvariant m maxResponseSize k r x' := by
  simp only [step, Option.ite_none_left_eq_some, List.isEmpty_iff] at h
  obtain ⟨hrun, h⟩ := h
  obtain ⟨hv, hhandlers, hopen⟩ := hx.running hrun
  obtain ⟨s, hstep, rfl⟩ := serverStep_some h
  simp only [ServerStreamingCall.step, hv.spawned, if_true, Option.some.injEq] at hstep
  subst hstep
  have hside := responseSide_withServer { x with answers := x.answers ++ [p] }
    (s := x.server.after (x.server.call.perform (.write p)))
    (x.server.call.writerImpl.perform (.write p)).2 rfl
  have hsmall : (x.responseSide.answer p).Small maxResponseSize k := hs
  obtain ⟨hanswer, hfin⟩ := hx.response.answer hsmall hopen
  refine ⟨by rw [hside]; exact hanswer, hx.opened, Or.inr { hv with
    spawned := hv.spawned
    handlers := ?_
    head := (congrArg List.length (writtenHeads_append _
      (RawServerWriterImpl.perform_heads _ _))).trans hv.head }⟩
  exact hhandlers.trans (if_neg fun h => absurd (hfin.symm.trans h) (by simp)).symm

theorem invariant_addMetadata {trailing : Bool} {key value : Bytes}
    (hx : ExchangeInvariant m maxResponseSize k r x)
    (h : step z x (.addMetadata trailing key value) = some x') :
    ExchangeInvariant m maxResponseSize k r x' := by
  simp only [step, Option.ite_none_left_eq_some, List.isEmpty_iff] at h
  obtain ⟨hrun, h⟩ := h
  obtain ⟨hv, _, _⟩ := hx.running hrun
  simp only [serverStep, ServerStreamingCall.step, hv.spawned, if_true, Option.map_some, withServer,
    responseResumed_self, Wire.resume_false, Option.some.injEq] at h
  subst h
  exact ⟨⟨hx.response.download, hx.response.returned⟩, hx.opened,
    Or.inr { hv with spawned := rfl }⟩

theorem invariant_handlerReturn {status : Option Status}
    (hx : ExchangeInvariant m maxResponseSize k r x)
    (hs : x.responseSide.Small maxResponseSize k)
    (h : step z x (.handlerReturn status) = some x') :
    ExchangeInvariant m maxResponseSize k r x' := by
  obtain ⟨s, hstep, rfl⟩ := serverStep_some h
  obtain ⟨req, hreq, rfl⟩ := Option.map_eq_some_iff.1 hstep
  obtain ⟨hv, hhandlers, hopen⟩ := hx.running fun hnil => by
    rw [show x.server.handlers = [] from hnil] at hreq
    cases hreq
  have hreturn : x.server.call.handlerReturned status =
      x.server.call.perform (.finish (handlerStatus status)) :=
    if_neg (by simp [hopen])
  have hside := responseSide_withServer { x with returned := some (handlerStatus status) }
    (s := { x.server with handlers := x.server.handlers.eraseIdx 0 }.after
      (x.server.call.perform (.finish (handlerStatus status))))
    (x.server.call.writerImpl.finish (handlerStatus status)).2 rfl
  obtain ⟨hfinish, hfin⟩ := hx.response.finish (s := handlerStatus status) hs hopen
  rw [hreturn]
  refine ⟨by rw [hside]; exact hfinish, hx.opened, Or.inr { hv with
    spawned := hv.spawned
    handlers := ?_
    head := (congrArg List.length (writtenHeads_append _
      (RawServerWriterImpl.finish_heads _ _))).trans hv.head }⟩
  refine (congrArg (List.eraseIdx · 0) hhandlers).trans (if_pos ?_).symm
  exact hfin

theorem transport_pollDown {len : Nat} (hx : ExchangeInvariant m maxResponseSize k r x)
    (hs : x.responseSide.Small maxResponseSize k) (h : step z x (.pollDown len) = some x') :
    ExchangeInvariant m maxResponseSize k r x' ∧ x'.remaining < x.remaining := by
  simp only [step, Option.ite_none_right_eq_some, Option.map_eq_some_iff] at h
  obtain ⟨hpoll, y, hy, rfl⟩ := h
  obtain ⟨s, hstep, rfl⟩ := serverStep_some hy
  simp only [ServerStreamingCall.step, Option.ite_none_right_eq_some, Option.some.injEq,
    Bool.and_eq_true] at hstep
  obtain ⟨⟨hspawned, _⟩, rfl⟩ := hstep
  have hv : Serving r x := hx.phase.resolve_left fun hc =>
    absurd (hc.spawned.symm.trans hspawned) (by simp)
  have hside := congrArg (fun y : ResponseSide => { y with
    down := y.down.take (x.server.call.writerImpl.generate len).2.1 })
      (responseSide_withServer x (s := x.server.after
        ({ x.server.call with writerImpl := (x.server.call.writerImpl.generate len).1 },
          (x.server.call.writerImpl.generate len).2.2)) _ rfl)
  obtain ⟨hsound, hless⟩ := hx.response.poll hs hpoll
  refine ⟨⟨(congrArg (·.Sound maxResponseSize k) hside).mpr hsound, hx.opened, Or.inr { hv with
    spawned := hv.spawned
    handlers := hv.handlers.trans (by
      rw [← x.server.call.writerImpl.generate_finished len]; rfl)
    head := (congrArg List.length (writtenHeads_append _
      (RawServerWriterImpl.generate_heads _ len))).trans hv.head }⟩, ?_⟩
  refine Nat.add_lt_add_left ?_ _
  exact (congrArg (·.toDownload.remaining) hside).trans_lt hless

/-- An event of the response at the client. -/
theorem transport_response {e : DownloadEvent} {c : StreamingCall} {w : Wire}
    (hx : ExchangeInvariant m maxResponseSize k r x)
    (hs : x.responseSide.Small maxResponseSize k) (he : Download.isResponseEvent e = true)
    (h : x.responseSide.toDownload.step e =
      some (responseSide { x with client := c, down := w }).toDownload) :
    ExchangeInvariant m maxResponseSize k r { x with client := c, down := w } ∧
      remaining { x with client := c, down := w } < x.remaining := by
  obtain ⟨hsound, hless⟩ := hx.response.client hs he h
  exact ⟨⟨hsound, hx.opened, hx.phase.imp (fun hc => { hc with }) fun hv => { hv with }⟩,
    Nat.add_lt_add_left hless _⟩

/-- **Every event of the connection keeps the exchange**, and brings it closer to its rest. -/
theorem transport_step {e : ServerStreamingExchangeEvent}
    (hwf : (serverFormat m).WellFormed (messageFrame 0 r)) (he : isTransport e = true)
    (hx : ExchangeInvariant m maxResponseSize k r x)
    (hs : x.responseSide.Small maxResponseSize k) (h : step z x e = some x') :
    ExchangeInvariant m maxResponseSize k r x' ∧ x'.remaining < x.remaining := by
  cases e with
  | request n => exact transport_request hwf hx h
  | requestEnd => exact transport_requestEnd hwf hx h
  | pollDown len => exact transport_pollDown hx hs h
  | head =>
      obtain ⟨head, hhead, h⟩ := Option.bind_eq_some_iff.1 h
      obtain ⟨c, hc, rfl⟩ := clientStep_some h
      exact transport_response hx hs rfl (ResponseSide.step_head hhead hc)
  | deliverDown n =>
      simp only [step, Option.ite_none_right_eq_some] at h
      obtain ⟨hg, h⟩ := h
      obtain ⟨c, hc, rfl⟩ := clientStep_some h
      exact transport_response hx hs rfl (ResponseSide.step_deliver hg hc)
  | trailer =>
      simp only [step, Option.ite_none_right_eq_some, Option.bind_eq_some_iff] at h
      obtain ⟨hg, t, ht, h⟩ := h
      obtain ⟨c, hc, rfl⟩ := clientStep_some h
      exact transport_response hx hs rfl (ResponseSide.step_trailer hg ht hc)
  | runStrand =>
      obtain ⟨c, hc, rfl⟩ := clientStep_some h
      exact transport_response hx hs rfl (ResponseSide.step_runStrand hc)
  | answer | addMetadata | handlerReturn | read => cases he

/-- The logs hold what the events write and return. -/
theorem logs_step {e : ServerStreamingExchangeEvent} (h : step z x e = some x') :
    x'.answers = x.answers ++ replies e ∧ x'.returned = (returns e).getLast?.or x.returned := by
  have hserver {y : ServerStreamingExchange} {e : ServerStreamingEvent}
      (hy : y.serverStep z e = some x') :
      x'.answers = y.answers ∧ x'.returned = y.returned := by
    obtain ⟨s, _, rfl⟩ := serverStep_some hy
    exact ⟨rfl, rfl⟩
  have hclient {y : ServerStreamingExchange} {e : CallEvent} (hy : y.clientStep e = some x') :
      x'.answers = y.answers ∧ x'.returned = y.returned := by
    obtain ⟨c, _, rfl⟩ := clientStep_some hy
    exact ⟨rfl, rfl⟩
  cases e with
  | request n => simpa [replies, returns] using hserver (Option.ite_none_right_eq_some.1 h).2
  | requestEnd => simpa [replies, returns] using hserver (Option.ite_none_right_eq_some.1 h).2
  | answer p => simpa [replies, returns] using hserver (Option.ite_none_left_eq_some.1 h).2
  | addMetadata trailing key value =>
      simpa [replies, returns] using hserver (Option.ite_none_left_eq_some.1 h).2
  | handlerReturn status => simpa [replies, returns] using hserver h
  | pollDown len =>
      obtain ⟨y, hy, rfl⟩ := Option.map_eq_some_iff.1 (Option.ite_none_right_eq_some.1 h).2
      obtain ⟨s, _, rfl⟩ := serverStep_some hy
      simp [replies, returns, withServer]
  | head =>
      obtain ⟨t, _, h⟩ := Option.bind_eq_some_iff.1 h
      simpa [replies, returns] using hclient h
  | deliverDown n => simpa [replies, returns] using hclient (Option.ite_none_right_eq_some.1 h).2
  | trailer =>
      obtain ⟨t, _, h⟩ := Option.bind_eq_some_iff.1 (Option.ite_none_right_eq_some.1 h).2
      simpa [replies, returns] using hclient h
  | runStrand => simpa [replies, returns] using hclient h
  | read =>
      obtain ⟨r, _, h⟩ := Option.bind_eq_some_iff.1 h
      simpa [replies, returns] using hclient h

/-- What was written stays written. -/
theorem small_of_step {e : ServerStreamingExchangeEvent} (h : step z x e = some x')
    (hs : x'.responseSide.Small maxResponseSize k) : x.responseSide.Small maxResponseSize k := by
  intro p hp
  refine hs p ?_
  rw [show x'.responseSide.answers = _ from (logs_step h).1]
  exact List.mem_append_left _ hp

/-- **Every event keeps the exchange.** -/
theorem exchangeInvariant_step {e : ServerStreamingExchangeEvent}
    (hwf : (serverFormat m).WellFormed (messageFrame 0 r))
    (hx : ExchangeInvariant m maxResponseSize k r x)
    (hs : x'.responseSide.Small maxResponseSize k) (h : step z x e = some x') :
    ExchangeInvariant m maxResponseSize k r x' := by
  have hs' := small_of_step h hs
  cases e with
  | answer p => exact invariant_answer hx hs h
  | addMetadata trailing key value => exact invariant_addMetadata hx h
  | handlerReturn status => exact invariant_handlerReturn hx hs' h
  | read =>
      obtain ⟨rd, hr, h⟩ := Option.bind_eq_some_iff.1 h
      obtain ⟨c, hc, rfl⟩ := clientStep_some h
      exact ⟨hx.response.read hs' hr hc, hx.opened,
        hx.phase.imp (fun hp => { hp with }) fun hv => { hv with }⟩
  | request | requestEnd | pollDown | head | deliverDown | trailer | runStrand =>
      exact (transport_step hwf rfl hx hs' h).1

end Steps

/-! ## What the two ends may rely on -/

/-- What holds in every state of a call with the request `r`: the handler is invoked at most once,
with the request, and is invoked before it writes; the caller reads a prefix of what it has written,
and an end or a status only once the handler has returned it. -/
structure Exchanged (r : Bytes) (x : ServerStreamingExchange) : Prop where
  invocations : x.invocations <+: [r]
  invoked : x.answers ≠ [] ∨ x.returned.isSome = true → x.invocations = [r]
  callerReads : x.results <+: x.answers.map .message ++
    (x.returned.elim [] fun s => List.replicate x.results.length (streamEnd s))
  finish : ∃ r, x.client.call.reader = some r ∧ ∀ t, r.finish = some t → x.returned = some t
  trailers : tracedTrailers x.server.trace =
    if x.down.eof then (x.returned.elim [] fun s => [buildTrailers s [] []]) else []

/-- What a call may rely on wherever it stands: the events of the connection and the strand come to
a rest, and at a rest the handler was invoked, and all it has written has arrived. -/
structure Rests (z : Zlib) (r : Bytes) (x : ServerStreamingExchange) : Prop where
  bounded : ∃ n, ∀ es y, (∀ e ∈ es, isTransport e = true) → (machine z).run x es = some y →
    es.length ≤ n
  rests : ∃ es y, (∀ e ∈ es, isTransport e = true) ∧ (machine z).run x es = some y ∧
    Quiescent z y
  settled : Quiescent z x → x.invocations = [r] ∧ ∃ rd, x.client.call.reader = some rd ∧
    Arrived rd.msgQueue x.answers (x.returned.map streamEnd) x.results ∧ rd.finish = x.returned

section Ends

variable {m maxResponseSize k : Nat} {r : Bytes} {z : Zlib} {x : ServerStreamingExchange}

/-- At rest the request has arrived. -/
theorem quiescent_serving (hx : ExchangeInvariant m maxResponseSize k r x) (hq : Quiescent z x) :
    Serving r x := by
  rcases hx.phase with hc | hv
  · have hend := hq .requestEnd rfl
    have hnil : x.upstream = [] := by
      by_contra hne
      have hnone := hq (.request 1) rfl
      have hpos := List.length_pos_iff.2 hne
      simp [step, Nat.succ_le_iff.2 hpos, serverData, serverStep, ServerStreamingCall.step,
        hc.registered] at hnone
    simp [step, hnil, hc.ended, serverData, serverStep, ServerStreamingCall.step,
      hc.registered] at hend
  · exact hv

/-- At rest the response is idle. -/
theorem quiescent_response (hx : ExchangeInvariant m maxResponseSize k r x)
    (hq : Quiescent z x) : x.responseSide.Idle where
  strand := by
    cases hs : x.client.strand with
    | nil => exact hs
    | cons t rest =>
        have hnone := hq .runStrand rfl
        simp [step, clientStep, StreamingCall.step, hs] at hnone
  generator := by
    have hnone := hq (.pollDown 1) rfl
    have hv := quiescent_serving hx hq
    cases hc : x.down.canPoll 1 with
    | false => exact hc
    | true =>
        simp [step, hc, serverStep, ServerStreamingCall.step, hv.spawned, hx.opened] at hnone
  head head hhead := by
    have hnone := hq .head rfl
    have hfirst : (writtenHeads x.server.trace).head? = some head := hhead
    simpa [step, hfirst, clientStep, responseSide] using hnone
  bytes hne := by
    have hnone := hq (.deliverDown 1) rfl
    have hpos : 0 < x.down.inFlight.length := List.length_pos_iff.2 hne
    simpa [step, Nat.succ_le_iff.2 hpos, clientStep, responseSide] using hnone
  trailers heof hwire t ht := by
    have hnone := hq .trailer rfl
    have heof' : x.down.eof = true := heof
    have hwire' : x.down.inFlight = [] := hwire
    have ht' : (tracedTrailers x.server.trace).head? = some t := ht
    simpa [step, heof', hwire', ht', clientStep, responseSide] using hnone

theorem ExchangeInvariant.exchanged (hx : ExchangeInvariant m maxResponseSize k r x)
    (hs : x.responseSide.Small maxResponseSize k) : Exchanged r x := by
  obtain ⟨hreads, hfinish, htrailers⟩ := hx.response.delivered hs
  refine ⟨?_, fun h => ?_, hreads, hfinish, htrailers⟩
  · rcases hx.phase with hc | hv
    · rw [hc.invocations]
      exact List.nil_prefix
    · exact hv.invocations ▸ List.prefix_rfl
  · rcases hx.phase with hc | hv
    · have hret : x.returned.isSome = false := hx.response.returned.trans hc.unfinished
      rcases h with h | h
      · exact absurd hc.answers h
      · exact absurd (hret.symm.trans h) (by simp)
    · exact hv.invocations

theorem ExchangeInvariant.rests (hwf : (serverFormat m).WellFormed (messageFrame 0 r))
    (hx : ExchangeInvariant m maxResponseSize k r x)
    (hs : x.responseSide.Small maxResponseSize k) : Rests z r x := by
  have htransport : ∀ a e b, isTransport e = true → (machine z).step a e = some b →
      a.responseSide.Small maxResponseSize k → b.responseSide.Small maxResponseSize k := by
    intro a e b he h hsa
    have hnone : replies e = [] := by
      cases e with
      | answer | addMetadata | handlerReturn | read => cases he
      | _ => rfl
    have hanswers := (logs_step h).1
    rw [hnone, List.append_nil] at hanswers
    intro p hp
    rw [show b.responseSide.answers = a.responseSide.answers from hanswers] at hp
    exact hsa p hp
  have hstep : ∀ a e b, ExchangeInvariant m maxResponseSize k r a ∧
      a.responseSide.Small maxResponseSize k → isTransport e = true →
      (machine z).step a e = some b → ExchangeInvariant m maxResponseSize k r b ∧
        b.responseSide.Small maxResponseSize k :=
    fun a e b ha he h => ⟨(transport_step hwf he ha.1 ha.2 h).1, htransport a e b he h ha.2⟩
  have hdec : ∀ a e b, ExchangeInvariant m maxResponseSize k r a ∧
      a.responseSide.Small maxResponseSize k → isTransport e = true →
      (machine z).step a e = some b → b.remaining < a.remaining :=
    fun a e b ha he h => (transport_step hwf he ha.1 ha.2 h).2
  exact ⟨⟨x.remaining, fun es y hes hrun =>
      Machine.run_length_le_of hstep hdec es x y ⟨hx, hs⟩ hes hrun⟩,
    Machine.exists_quiescent_of hstep hdec x ⟨hx, hs⟩, fun hq =>
      have hv := quiescent_serving hx hq
      ⟨hv.invocations, hx.response.settled hs hv.head (quiescent_response hx hq)⟩⟩

end Ends

/-! ## The start -/

/-- A call that is registered has neither answered nor been closed. -/
theorem start_registered {z : Zlib} {c : ServerStreamingCallState} {req : Request}
    (h : (c.start z req).2.2 = true) : ∃ serverCtx timer,
      c.start z req = ({ c with ctx := serverCtx, timer := timer }, [], true) := by
  simp only [ServerStreamingCallState.start] at h ⊢
  split at h
  · cases h
  · rename_i hok
    rw [if_neg hok]
    exact ⟨_, _, rfl⟩

theorem exchangeInvariant_start {z : Zlib} (ctx : Option ClientContext) (id : StreamId)
    {m maxMetadataSize maxResponseSize : Nat} {peerIdentity : Bytes} {req : Request} {r : Bytes}
    (hlen : r.length < 2 ^ 32)
    (hreg : ((ServerStreamingCallState.new m maxMetadataSize maxResponseSize peerIdentity).start z
      req).2.2 = true) :
    ExchangeInvariant m maxResponseSize (maxReceiveMessageSize ctx) r
      (start z ctx id (.new m maxMetadataSize maxResponseSize peerIdentity) req r) := by
  obtain ⟨serverCtx, timer, hstart⟩ := start_registered hreg
  have hkind : CallKind.serverStreaming ≠ .clientStreaming := by decide
  have hdown := Download.downloadInvariant_start Zlib.none hkind ctx id ServerContext.new
    maxResponseSize [] Status.okStatus
  have hframe : (encodeFrame 0 r).getD [] = frameOf r := by
    rw [encodeFrame_frameOf hlen]
    rfl
  rw [start, hstart]
  exact ⟨⟨hdown, rfl⟩, rfl, Or.inl ⟨rfl, rfl, rfl, rfl, rfl, rfl, rfl, rfl, rfl, [], hframe,
    FrameDecoder.reads_new m⟩⟩

/-- The logs hold what the events of a run write and return. -/
theorem logs_run {z : Zlib} {x x' : ServerStreamingExchange}
    {es : List ServerStreamingExchangeEvent} (h : (machine z).run x es = some x') :
    x'.answers = x.answers ++ es.flatMap replies ∧
      x'.returned = (es.flatMap returns).getLast?.or x.returned :=
  ⟨Machine.run_ledger (f := answers) (g := replies) (fun _ _ _ hs => (logs_step hs).1) h,
    Machine.run_getLast? (f := returned) (g := returns) (fun _ _ _ hs => (logs_step hs).2) h⟩

/-- **Every run keeps the exchange**, as long as the messages keep their limits. -/
theorem ExchangeInvariant.run {m maxResponseSize k : Nat} {r : Bytes} {z : Zlib}
    {x x' : ServerStreamingExchange} {es : List ServerStreamingExchangeEvent}
    (hwf : (serverFormat m).WellFormed (messageFrame 0 r))
    (hx : ExchangeInvariant m maxResponseSize k r x) (h : (machine z).run x es = some x')
    (hs : x'.responseSide.Small maxResponseSize k) :
    ExchangeInvariant m maxResponseSize k r x' := by
  refine Machine.run_invariant (M := machine z)
    (I := fun y => y.responseSide.Small maxResponseSize k →
      ExchangeInvariant m maxResponseSize k r y)
    (fun y e y' hy hstep hs' => ?_) es x x' (fun _ => hx) h hs
  exact exchangeInvariant_step hwf (hy (small_of_step hstep hs')) hs' hstep

/-- The invariant of a run whose responses keep their limits. -/
theorem invariant_reached {z : Zlib} {ctx : Option ClientContext} {id : StreamId}
    {maxRequestSize maxMetadataSize maxResponseSize : Nat} {peerIdentity : Bytes} {req : Request}
    {r : Bytes} (hr : r.length ≤ maxRequestSize ∧ r.length < 2 ^ 32)
    (hreg : ((ServerStreamingCallState.new maxRequestSize maxMetadataSize maxResponseSize
      peerIdentity).start z req).2.2 = true) {es : List ServerStreamingExchangeEvent}
    {x : ServerStreamingExchange}
    (hdown : ∀ p ∈ es.flatMap replies, p.length ≤ maxResponseSize ∧
      p.length ≤ maxReceiveMessageSize ctx ∧ p.length < 2 ^ 32)
    (h : (machine z).run (start z ctx id
      (.new maxRequestSize maxMetadataSize maxResponseSize peerIdentity) req r) es = some x) :
    ExchangeInvariant maxRequestSize maxResponseSize (maxReceiveMessageSize ctx) r x ∧
      x.responseSide.Small maxResponseSize (maxReceiveMessageSize ctx) := by
  have hanswers : x.answers = es.flatMap replies := by simpa [start] using (logs_run h).1
  have hsmall : x.responseSide.Small maxResponseSize (maxReceiveMessageSize ctx) := by
    intro p hp
    rw [show x.responseSide.answers = _ from hanswers] at hp
    exact hdown p hp
  have hwf := messageFrame_serverFormat hr.1 hr.2
  exact ⟨(exchangeInvariant_start ctx id hr.2 hreg).run hwf h hsmall, hsmall⟩

/-- What `server_streaming_exchange` says of every run of a call that the server has begun. -/
theorem exchange_run {z : Zlib} {ctx : Option ClientContext} {id : StreamId}
    {maxRequestSize maxMetadataSize maxResponseSize : Nat} {peerIdentity : Bytes} {req : Request}
    {r : Bytes} (hr : r.length ≤ maxRequestSize ∧ r.length < 2 ^ 32)
    (hreg : ((ServerStreamingCallState.new maxRequestSize maxMetadataSize maxResponseSize
      peerIdentity).start z req).2.2 = true) (es : List ServerStreamingExchangeEvent)
    (x : ServerStreamingExchange)
    (hdown : ∀ p ∈ es.flatMap replies, p.length ≤ maxResponseSize ∧
      p.length ≤ maxReceiveMessageSize ctx ∧ p.length < 2 ^ 32)
    (h : (machine z).run (start z ctx id
      (.new maxRequestSize maxMetadataSize maxResponseSize peerIdentity) req r) es = some x) :
    x.answers = es.flatMap replies ∧ x.returned = (es.flatMap returns).getLast? ∧
      Exchanged r x ∧ Rests z r x := by
  obtain ⟨ha, hr'⟩ := logs_run h
  obtain ⟨hx, hsmall⟩ := invariant_reached hr hreg hdown h
  exact ⟨by simpa [start] using ha, by simpa [start] using hr', hx.exchanged hsmall,
    hx.rests (messageFrame_serverFormat hr.1 hr.2) hsmall⟩

/-- **A server-streaming call from end to end.** In every state a call can reach, however the
deliveries, the handler, the polls, the closures and the reads are interleaved: the handler is
invoked at most once, with the request; the caller reads a prefix of what the handler has written,
in order, and then its end; and the connection comes to a rest, at which the handler was invoked and
all it has written and returned has arrived. -/
theorem server_streaming_exchange {z : Zlib} {ctx : Option ClientContext} {id : StreamId}
    {maxRequestSize maxMetadataSize maxResponseSize : Nat} {peerIdentity : Bytes} {req : Request}
    {r : Bytes} (hr : r.length ≤ maxRequestSize ∧ r.length < 2 ^ 32)
    (hreg : ((ServerStreamingCallState.new maxRequestSize maxMetadataSize maxResponseSize
      peerIdentity).start z req).2.2 = true) {es : List ServerStreamingExchangeEvent}
    {x : ServerStreamingExchange}
    (hdown : ∀ p ∈ es.flatMap replies, p.length ≤ maxResponseSize ∧
      p.length ≤ maxReceiveMessageSize ctx ∧ p.length < 2 ^ 32)
    (h : (machine z).run (start z ctx id
      (.new maxRequestSize maxMetadataSize maxResponseSize peerIdentity) req r) es = some x) :
    x.answers = es.flatMap replies ∧ x.returned = (es.flatMap returns).getLast? ∧
      Exchanged r x ∧ Rests z r x :=
  exchange_run hr hreg es x hdown h

/-- The caller reads the first message before the handler writes the second. -/
def exampleWatch : List ServerStreamingExchangeEvent :=
  [.request 2, .request 4, .read, .requestEnd, .head, .answer [8], .pollDown 9, .deliverDown 6,
    .runStrand, .read, .answer [9], .handlerReturn (some Status.okStatus), .pollDown 9,
    .pollDown 1, .deliverDown 6, .trailer, .runStrand, .read, .runStrand, .read]

theorem server_streaming_exchange_example :
    ∃ x, (machine Zlib.none).run (start Zlib.none none 1 (.new 100 100 100 []) ⟨[], []⟩ [7])
        exampleWatch = some x ∧
      x.invocations = [[7]] ∧ x.results = [.message [8], .message [9], .eos] ∧
      x.answers = [[8], [9]] ∧ x.returned = some Status.okStatus ∧ Exchanged [7] x ∧
      Rests Zlib.none [7] x := by
  have hrun : ((machine Zlib.none).run (start Zlib.none none 1 (.new 100 100 100 []) ⟨[], []⟩ [7])
      exampleWatch).map (fun x => (x.invocations, x.results)) =
        some ([[7]], [.message [8], .message [9], .eos]) := by decide +kernel
  obtain ⟨x, hx, hres⟩ := Option.map_eq_some_iff.1 hrun
  obtain ⟨hinv, hreads⟩ := Prod.mk.inj hres
  exact ⟨x, hx, hinv, hreads, server_streaming_exchange (by decide) (by decide) (by decide) hx⟩

end ServerStreamingExchange

end Rpcpio.Stream
