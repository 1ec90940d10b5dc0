import Rpcpio.Stream.Duplex

/-!
# Both directions of a bidirectional call

An event of one direction is an event of its side and leaves the other side alone, except that the
closures of both directions share the client's strand; so the two sides are kept together
(`duplexInvariant_step`), and the events of the connection bring the call closer to its rest
(`transport_step`). What the two ends may rely on in every state is `Exchanged`.
-/

set_option autoImplicit false

namespace Rpcpio.Stream

open Rpcpio.Library Rpcpio.Protocol Rpcpio.Client Rpcpio.Server

namespace Duplex

/-! ## The invariant -/

/-- What holds of a bidirectional call between two events. -/
structure DuplexInvariant (m maxResponseSize k : Nat) (x : Duplex) : Prop where
  request : x.requestSide.Sound m
  response : x.responseSide.Sound maxResponseSize k
  registered : x.server.registered = true
  opened : x.server.call.closed = false
  head : (writtenHeads x.server.trace).length = 1
  running : x.server.running = !x.server.call.writerImpl.finished

/-- An upper bound on the events of the connection and the strand that are still to come. -/
def remaining (x : Duplex) : Nat :=
  x.requestSide.remaining + x.responseSide.toDownload.remaining

/-- The messages written so far keep the limits of their direction. -/
structure Small (m maxResponseSize k : Nat) (x : Duplex) : Prop where
  written : x.requestSide.Small m
  answers : x.responseSide.Small maxResponseSize k

section Steps

variable {m maxResponseSize k : Nat} {z : Zlib} {x x' : Duplex}

theorem clientStep_some {e : CallEvent} (h : x.clientStep e = some x') :
    ∃ c, x.client.step e = some c ∧ x' = { x with client := c } := by
  obtain ⟨c, hc, rfl⟩ := Option.map_eq_some_iff.1 h
  exact ⟨c, hc, rfl⟩

/-- The response side after an event at the server: its writer, and its calls on the response. -/
theorem responseSide_withServer (x : Duplex) {s : BidiStreamingCall} (calls : List ResponseCall)
    (ht : s.trace = x.server.trace ++ calls.map .call) :
    (x.withServer s).responseSide = x.responseSide.after s.call.writerImpl calls := by
  simp only [responseSide, withServer, ResponseSide.after, ht, responseResumed_append]

/-- An event at the server that neither writes nor calls the response leaves the side alone. -/
theorem responseSide_quiet (x : Duplex) {s : BidiStreamingCall}
    (hw : s.call.writerImpl = x.server.call.writerImpl) (ht : s.trace = x.server.trace) :
    (x.withServer s).responseSide = x.responseSide := by
  rw [responseSide_withServer x [] (by simpa using ht), hw]
  exact x.responseSide.after_nil

/-- An event at the server that neither writes nor calls the response is none of the response. -/
theorem DuplexInvariant.quiet (hx : DuplexInvariant m maxResponseSize k x)
    {s : BidiStreamingCall} (hw : s.call.writerImpl = x.server.call.writerImpl)
    (ht : s.trace = x.server.trace) :
    (x.withServer s).responseSide.Sound maxResponseSize k := by
  rw [responseSide_quiet x hw ht]
  exact hx.response

/-- An event of the caller's own stream is one of both directions. -/
theorem DuplexInvariant.ownResponse (hx : DuplexInvariant m maxResponseSize k x)
    (hs : Small m maxResponseSize k x) {e : CallEvent} {c : StreamingCall}
    (he : isUploadEvent e = true) (h : x.client.step e = some c) :
    ResponseSide.Sound maxResponseSize k { x.responseSide with client := c } := by
  refine ⟨hx.response.step hs.answers (e := .upload e) ?_, hx.response.returned⟩
  simp only [Download.step, he, if_true]
  exact congrArg (Option.map _) h

theorem invariant_write {p : Bytes} (hx : DuplexInvariant m maxResponseSize k x)
    (hs : Small m maxResponseSize k x') (h : step z x (.write p) = some x') :
    DuplexInvariant m maxResponseSize k x' := by
  simp only [step, Option.ite_none_left_eq_some, Bool.not_eq_true] at h
  obtain ⟨hopen, h⟩ := h
  obtain ⟨c, hc, rfl⟩ := clientStep_some h
  have hs' : Small m maxResponseSize k x :=
    ⟨fun q hq => hs.written q (List.mem_append_left _ hq), hs.answers⟩
  exact { hx with
    request := hx.request.write hs.written hopen hc
    response := hx.ownResponse hs' rfl hc }

theorem invariant_writesDone (hx : DuplexInvariant m maxResponseSize k x)
    (hs : Small m maxResponseSize k x) (h : step z x .writesDone = some x') :
    DuplexInvariant m maxResponseSize k x' := by
  simp only [step, Option.ite_none_left_eq_some, Bool.not_eq_true] at h
  obtain ⟨hopen, h⟩ := h
  obtain ⟨c, hc, rfl⟩ := clientStep_some h
  exact { hx with
    request := hx.request.writesDone hs.written hopen hc
    response := hx.ownResponse hs rfl hc }

theorem transport_pollUp {len : Nat} (hx : DuplexInvariant m maxResponseSize k x)
    (hs : Small m maxResponseSize k x) (h : step z x (.pollUp len) = some x') :
    DuplexInvariant m maxResponseSize k x' ∧ x'.remaining < x.remaining := by
  simp only [step, Option.ite_none_right_eq_some, Option.bind_eq_some_iff] at h
  obtain ⟨hpoll, w, hw, h⟩ := h
  obtain ⟨c, hc, rfl⟩ := clientStep_some h
  obtain ⟨hsound, hless⟩ := hx.request.poll hs.written hpoll hw hc
  refine ⟨{ hx with request := hsound, response := hx.ownResponse hs rfl hc }, ?_⟩
  exact Nat.add_lt_add_of_lt_of_le hless
    (remaining_poll (d := x.responseSide.toDownload) hc).le

theorem transport_runStrand (hx : DuplexInvariant m maxResponseSize k x)
    (hs : Small m maxResponseSize k x) (h : step z x .runStrand = some x') :
    DuplexInvariant m maxResponseSize k x' ∧ x'.remaining < x.remaining := by
  obtain ⟨c, hc, rfl⟩ := Option.map_eq_some_iff.1 h
  obtain ⟨hdown, hless⟩ :=
    hx.response.client hs.answers (w := x.down) rfl (ResponseSide.step_runStrand hc)
  obtain ⟨_, v, parsed, chunks, delivered, trailerQueued, hr⟩ := hx.response.download
  obtain ⟨hup, hle⟩ := hx.request.runStrand hs.written hr.client.tasks hc
  exact ⟨{ hx with request := hup, response := hdown }, Nat.add_lt_add_of_le_of_lt hle hless⟩

theorem serverStep_some {e : BidiStreamingEvent} (h : x.serverStep z e = some x') :
    ∃ s, x.server.step z e = some s ∧ x' = x.withServer s := by
  obtain ⟨s, hs, rfl⟩ := Option.map_eq_some_iff.1 h
  exact ⟨s, hs, rfl⟩

theorem transport_deliverUp {n : Nat} (hx : DuplexInvariant m maxResponseSize k x)
    (hs : Small m maxResponseSize k x) (h : step z x (.deliverUp n) = some x') :
    DuplexInvariant m maxResponseSize k x' ∧ x'.remaining < x.remaining := by
  simp only [step, Option.ite_none_right_eq_some] at h
  obtain ⟨hg, h⟩ := h
  obtain ⟨s, hstep, rfl⟩ := serverStep_some h
  simp only [BidiStreamingCall.step, hx.registered, if_true, Option.some.injEq] at hstep
  subst hstep
  have hok : (x.server.call.parser.feed (x.up.inFlight.take n)).status.isOk = true := by
    have hparses : (x.server.call.parser.feed (x.up.inFlight.take n)).status = Status.okStatus :=
      hx.request.parses hs.written n
    rw [hparses]
    rfl
  have hne : (x.up.inFlight.take n).isEmpty = false := by
    simp only [Bool.and_eq_true, decide_eq_true_eq] at hg
    rw [List.isEmpty_eq_false_iff]
    intro h0
    have hl := congrArg List.length h0
    rw [List.length_take, List.length_nil] at hl
    omega
  have hdata : x.server.call.onData (x.up.inFlight.take n) =
      ((x.server.call.onData (x.up.inFlight.take n)).1, []) ∧
      (x.server.call.onData (x.up.inFlight.take n)).1.writerImpl = x.server.call.writerImpl ∧
      (x.server.call.onData (x.up.inFlight.take n)).1.closed = x.server.call.closed := by
    simp [BidiStreamingCallState.onData, hne, hok]
  obtain ⟨hcalls, hwriter, hclosed⟩ := hdata
  have htrace : (x.server.after (x.server.call.onData (x.up.inFlight.take n))).trace =
      x.server.trace := by
    rw [hcalls]
    simp [BidiStreamingCall.after]
  obtain ⟨hup, hless⟩ := hx.request.deliver z hs.written hg
  have hdown := responseSide_quiet { x with up := x.up.deliver n } hwriter htrace
  refine ⟨{ hx with
    request := hup
    response := by rw [hdown]; exact hx.response
    opened := hclosed.trans hx.opened
    head := (congrArg (fun t => (writtenHeads t).length) htrace).trans hx.head
    running := hx.running.trans (congrArg (!·.finished) hwriter.symm) }, ?_⟩
  exact Nat.add_lt_add_of_lt_of_le hless
    (congrArg (·.toDownload.remaining) hdown).le

theorem transport_halfClose (hx : DuplexInvariant m maxResponseSize k x)
    (hs : Small m maxResponseSize k x) (h : step z x .halfClose = some x') :
    DuplexInvariant m maxResponseSize k x' ∧ x'.remaining < x.remaining := by
  simp only [step, Option.ite_none_right_eq_some] at h
  obtain ⟨hg, h⟩ := h
  obtain ⟨s, hstep, rfl⟩ := serverStep_some h
  simp only [BidiStreamingCall.step, hx.registered, if_true, Option.some.injEq] at hstep
  subst hstep
  have htrace : (x.server.after (x.server.call.onData [])).trace = x.server.trace := by
    simp [BidiStreamingCall.after, BidiStreamingCallState.onData]
  obtain ⟨hup, hless⟩ := hx.request.halfClose z hs.written hg
  have hdown := responseSide_quiet { x with halfClosed := true } (s := x.server.after
    (x.server.call.onData [])) rfl htrace
  refine ⟨{ hx with
    request := hup
    response := by rw [hdown]; exact hx.response
    head := (congrArg (fun t => (writtenHeads t).length) htrace).trans hx.head }, ?_⟩
  exact Nat.add_lt_add_of_lt_of_le hless
    (congrArg (·.toDownload.remaining) hdown).le

theorem invariant_handlerRead (hx : DuplexInvariant m maxResponseSize k x)
    (hs : Small m maxResponseSize k x) (h : step z x .handlerRead = some x') :
    DuplexInvariant m maxResponseSize k x' := by
  simp only [step, Option.ite_none_right_eq_some] at h
  obtain ⟨_, h⟩ := h
  obtain ⟨s, hstep, rfl⟩ := serverStep_some h
  simp only [BidiStreamingCall.step, hx.registered, Bool.true_and, Option.ite_none_right_eq_some,
    Option.some.injEq] at hstep
  obtain ⟨hpop, rfl⟩ := hstep
  exact { hx with
    request := hx.request.read hs.written hpop
    response := hx.quiet rfl rfl
    registered := rfl }

theorem invariant_addMetadata {trailing : Bool} {key value : Bytes}
    (hx : DuplexInvariant m maxResponseSize k x)
    (h : step z x (.addMetadata trailing key value) = some x') :
    DuplexInvariant m maxResponseSize k x' := by
  simp only [step, Option.ite_none_right_eq_some] at h
  obtain ⟨_, h⟩ := h
  obtain ⟨s, hstep, rfl⟩ := serverStep_some h
  simp only [BidiStreamingCall.step, hx.registered, if_true, Option.some.injEq] at hstep
  subst hstep
  exact { hx with
    request := hx.request.setServer rfl rfl rfl
    response := hx.quiet rfl rfl
    registered := rfl }

/-- While the handler runs its writer is not finished. -/
theorem DuplexInvariant.unfinished (hx : DuplexInvariant m maxResponseSize k x)
    (hrun : x.server.running = true) : x.server.call.writerImpl.finished = false := by
  have h := hx.running
  rw [hrun] at h
  simpa using h.symm

theorem invariant_answer {p : Bytes} (hx : DuplexInvariant m maxResponseSize k x)
    (hs : Small m maxResponseSize k x') (h : step z x (.answer p) = some x') :
    DuplexInvariant m maxResponseSize k x' := by
  simp only [step, Option.ite_none_right_eq_some] at h
  obtain ⟨hrun, h⟩ := h
  obtain ⟨s, hstep, rfl⟩ := serverStep_some h
  simp only [BidiStreamingCall.step, hx.registered, if_true, Option.some.injEq] at hstep
  subst hstep
  have hside := responseSide_withServer { x with answers := x.answers ++ [p] }
    (s := x.server.after (x.server.call.perform (.write p)))
    (x.server.call.writerImpl.perform (.write p)).2 rfl
  have hopen := hx.unfinished hrun
  have hsmall : (x.responseSide.answer p).Small maxResponseSize k := hs.answers
  obtain ⟨hanswer, hfin⟩ := hx.response.answer hsmall hopen
  refine { hx with
    request := hx.request.setServer rfl rfl rfl
    response := by rw [hside]; exact hanswer
    registered := hx.registered
    head := (congrArg List.length (writtenHeads_append _
      (RawServerWriterImpl.perform_heads _ _))).trans hx.head
    running := hx.running.trans (congrArg (!·) (hopen.trans hfin.symm)) }

theorem invariant_handlerReturn {status : Option Status}
    (hx : DuplexInvariant m maxResponseSize k x) (hs : Small m maxResponseSize k x)
    (h : step z x (.handlerReturn status) = some x') :
    DuplexInvariant m maxResponseSize k x' := by
  obtain ⟨s, hstep, rfl⟩ := serverStep_some h
  simp only [BidiStreamingCall.step, Option.ite_none_right_eq_some, Option.some.injEq] at hstep
  obtain ⟨hrun, rfl⟩ := hstep
  have hopen := hx.unfinished hrun
  have hreturn : x.server.call.handlerReturned status =
      ({ x.server.call with
        timer := x.server.call.timer.cancel
        writerImpl := (x.server.call.writerImpl.finish (handlerStatus status)).1 },
          (x.server.call.writerImpl.finish (handlerStatus status)).2) := by
    simp [BidiStreamingCallState.handlerReturned, BidiStreamingCallState.finishWriter, hopen]
  have hside := responseSide_withServer { x with returned := some (handlerStatus status) }
    (s := { x.server with running := false }.after (x.server.call.handlerReturned status))
    (x.server.call.writerImpl.finish (handlerStatus status)).2
    (by rw [BidiStreamingCall.after, hreturn])
  rw [show BidiStreamingCallState.writerImpl (BidiStreamingCall.call _) = _ from
    congrArg (·.1.writerImpl) hreturn] at hside
  obtain ⟨hfinish, hfin⟩ := hx.response.finish (s := handlerStatus status) hs.answers hopen
  refine { hx with
    request := hx.request.setServer (congrArg (·.1.parser) hreturn)
      (congrArg (·.1.readerImpl) hreturn) rfl
    response := by rw [hside]; exact hfinish
    opened := (congrArg (·.1.closed) hreturn).trans hx.opened
    head := ?_
    running := ?_ }
  · refine (congrArg List.length ?_).trans hx.head
    show writtenHeads (x.server.trace ++ (x.server.call.handlerReturned status).2.map .call) = _
    rw [hreturn]
    exact writtenHeads_append _ (RawServerWriterImpl.finish_heads _ _)
  · exact (congrArg (!·) ((congrArg (·.1.writerImpl.finished) hreturn).trans hfin)).symm

theorem transport_pollDown {len : Nat} (hx : DuplexInvariant m maxResponseSize k x)
    (hs : Small m maxResponseSize k x) (h : step z x (.pollDown len) = some x') :
    DuplexInvariant m maxResponseSize k x' ∧ x'.remaining < x.remaining := by
  simp only [step, Option.ite_none_right_eq_some, Option.map_eq_some_iff] at h
  obtain ⟨hpoll, y, hy, rfl⟩ := h
  obtain ⟨s, hstep, rfl⟩ := serverStep_some hy
  have hserver : x.server.step z (.poll len) = some (x.server.after
      ({ x.server.call with writerImpl := (x.server.call.writerImpl.generate len).1 },
        (x.server.call.writerImpl.generate len).2.2)) :=
    if_pos (by rw [hx.registered, hx.opened]; rfl)
  rw [hserver, Option.some.injEq] at hstep
  subst hstep
  have hside := responseSide_withServer x (s := x.server.after
    ({ x.server.call with writerImpl := (x.server.call.writerImpl.generate len).1 },
      (x.server.call.writerImpl.generate len).2.2)) _ rfl
  obtain ⟨hsound, hless⟩ := hx.response.poll hs.answers hpoll
  have hafter : (responseSide { x.withServer (x.server.after
      ({ x.server.call with writerImpl := (x.server.call.writerImpl.generate len).1 },
        (x.server.call.writerImpl.generate len).2.2)) with
      down := (x.withServer (x.server.after _)).down.take
        (x.server.call.writerImpl.generate len).2.1 }) = x.responseSide.poll len :=
    congrArg (fun y : ResponseSide => { y with
      down := y.down.take (x.server.call.writerImpl.generate len).2.1 }) hside
  refine ⟨{ hx with
    request := hx.request.setServer rfl rfl rfl
    response := by rw [hafter]; exact hsound
    registered := hx.registered
    opened := hx.opened
    head := (congrArg List.length (writtenHeads_append _
      (RawServerWriterImpl.generate_heads _ len))).trans hx.head
    running := hx.running.trans
      (congrArg (!·) (x.server.call.writerImpl.generate_finished len).symm) },
    Nat.add_lt_add_left ?_ _⟩
  rw [hafter]
  exact hless

/-! ### The client's end -/

/-- An event of the response at the client, with which the caller's own stream goes on. -/
theorem transport_response {e : DownloadEvent} {c : StreamingCall} {w : Wire}
    (hx : DuplexInvariant m maxResponseSize k x) (hs : Small m maxResponseSize k x)
    (he : Download.isResponseEvent e = true) (hkeeps : Keeps x.client c)
    (h : x.responseSide.toDownload.step e =
      some (responseSide { x with client := c, down := w }).toDownload) :
    DuplexInvariant m maxResponseSize k { x with client := c, down := w } ∧
      remaining { x with client := c, down := w } < x.remaining := by
  obtain ⟨hup, hsame⟩ := hx.request.keeps hkeeps
  obtain ⟨hsound, hless⟩ := hx.response.client hs.answers he h
  exact ⟨{ hx with request := hup, response := hsound },
    Nat.add_lt_add_of_le_of_lt hsame.le hless⟩

theorem transport_head (hx : DuplexInvariant m maxResponseSize k x)
    (hs : Small m maxResponseSize k x) (h : step z x .head = some x') :
    DuplexInvariant m maxResponseSize k x' ∧ x'.remaining < x.remaining := by
  obtain ⟨head, hhead, h⟩ := Option.bind_eq_some_iff.1 h
  obtain ⟨c, hc, rfl⟩ := clientStep_some h
  obtain ⟨_, v, parsed, chunks, delivered, trailerQueued, hr⟩ := hx.response.download
  have haccepted : headVerdict head = .accepted := by
    have hfirst : x.responseSide.toDownload.head = head := by
      simp [responseSide, ResponseSide.toDownload, hhead]
    exact hfirst ▸ hr.head
  exact transport_response hx hs rfl (keeps_response (by simp [haccepted]) hc)
    (ResponseSide.step_head hhead hc)

theorem transport_deliverDown {n : Nat} (hx : DuplexInvariant m maxResponseSize k x)
    (hs : Small m maxResponseSize k x) (h : step z x (.deliverDown n) = some x') :
    DuplexInvariant m maxResponseSize k x' ∧ x'.remaining < x.remaining := by
  simp only [step, Option.ite_none_right_eq_some] at h
  obtain ⟨hg, h⟩ := h
  obtain ⟨c, hc, rfl⟩ := clientStep_some h
  exact transport_response hx hs rfl (keeps_data hc) (ResponseSide.step_deliver hg hc)

theorem transport_trailer (hx : DuplexInvariant m maxResponseSize k x)
    (hs : Small m maxResponseSize k x) (h : step z x .trailer = some x') :
    DuplexInvariant m maxResponseSize k x' ∧ x'.remaining < x.remaining := by
  simp only [step, Option.ite_none_right_eq_some, Option.bind_eq_some_iff] at h
  obtain ⟨hg, t, ht, h⟩ := h
  obtain ⟨c, hc, rfl⟩ := clientStep_some h
  exact transport_response hx hs rfl (keeps_trailers hc) (ResponseSide.step_trailer hg ht hc)

theorem invariant_read (hx : DuplexInvariant m maxResponseSize k x)
    (hs : Small m maxResponseSize k x) (h : step z x .read = some x') :
    DuplexInvariant m maxResponseSize k x' := by
  obtain ⟨r, hr, h⟩ := Option.bind_eq_some_iff.1 h
  obtain ⟨c, hc, rfl⟩ := clientStep_some h
  exact { hx with
    request := (hx.request.keeps (keeps_read hc)).1
    response := hx.response.read hs.answers hr hc }

/-- **Every event of the connection keeps both directions**, and brings the call closer to its
rest. -/
theorem transport_step {e : DuplexEvent} (he : isTransport e = true)
    (hx : DuplexInvariant m maxResponseSize k x) (hs : Small m maxResponseSize k x)
    (h : step z x e = some x') :
    DuplexInvariant m maxResponseSize k x' ∧ x'.remaining < x.remaining := by
  cases e with
  | runStrand => exact transport_runStrand hx hs h
  | pollUp len => exact transport_pollUp hx hs h
  | deliverUp n => exact transport_deliverUp hx hs h
  | halfClose => exact transport_halfClose hx hs h
  | pollDown len => exact transport_pollDown hx hs h
  | head => exact transport_head hx hs h
  | deliverDown n => exact transport_deliverDown hx hs h
  | trailer => exact transport_trailer hx hs h
  | write | writesDone | handlerRead | answer | addMetadata | handlerReturn | read => cases he

/-- **Every event keeps both directions.** -/
theorem duplexInvariant_step {e : DuplexEvent} (hx : DuplexInvariant m maxResponseSize k x)
    (hs : Small m maxResponseSize k x') (hs' : Small m maxResponseSize k x)
    (h : step z x e = some x') : DuplexInvariant m maxResponseSize k x' := by
  cases e with
  | write p => exact invariant_write hx hs h
  | writesDone => exact invariant_writesDone hx hs' h
  | handlerRead => exact invariant_handlerRead hx hs' h
  | answer p => exact invariant_answer hx hs h
  | addMetadata trailing key value => exact invariant_addMetadata hx h
  | handlerReturn status => exact invariant_handlerReturn hx hs' h
  | read => exact invariant_read hx hs' h
  | runStrand | pollUp | deliverUp | halfClose | pollDown | head | deliverDown | trailer =>
      exact (transport_step rfl hx hs' h).1

/-- The logs hold what the events write and return. -/
theorem logs_step {e : DuplexEvent} (h : step z x e = some x') :
    x'.written = x.written ++ writes e ∧ x'.answers = x.answers ++ replies e ∧
      x'.returned = (returns e).getLast?.or x.returned := by
  have hserver {y : Duplex} {e : BidiStreamingEvent} (hy : y.serverStep z e = some x') :
      x'.written = y.written ∧ x'.answers = y.answers ∧ x'.returned = y.returned := by
    obtain ⟨s, _, rfl⟩ := serverStep_some hy
    exact ⟨rfl, rfl, rfl⟩
  have hclient {y : Duplex} {e : CallEvent} (hy : y.clientStep e = some x') :
      x'.written = y.written ∧ x'.answers = y.answers ∧ x'.returned = y.returned := by
    obtain ⟨c, _, rfl⟩ := clientStep_some hy
    exact ⟨rfl, rfl, rfl⟩
  cases e with
  | write p => simpa [writes, replies, returns] using hclient (Option.ite_none_left_eq_some.1 h).2
  | writesDone =>
      simpa [writes, replies, returns] using hclient (Option.ite_none_left_eq_some.1 h).2
  | runStrand =>
      obtain ⟨c, _, rfl⟩ := Option.map_eq_some_iff.1 h
      simp [writes, replies, returns]
  | pollUp len =>
      obtain ⟨w, _, h⟩ := Option.bind_eq_some_iff.1 (Option.ite_none_right_eq_some.1 h).2
      simpa [writes, replies, returns] using hclient h
  | deliverUp n =>
      simpa [writes, replies, returns] using hserver (Option.ite_none_right_eq_some.1 h).2
  | halfClose =>
      simpa [writes, replies, returns] using hserver (Option.ite_none_right_eq_some.1 h).2
  | handlerRead =>
      simpa [writes, replies, returns] using hserver (Option.ite_none_right_eq_some.1 h).2
  | answer p => simpa [writes, replies, returns] using hserver (Option.ite_none_right_eq_some.1 h).2
  | addMetadata trailing key value =>
      simpa [writes, replies, returns] using hserver (Option.ite_none_right_eq_some.1 h).2
  | handlerReturn status => simpa [writes, replies, returns] using hserver h
  | pollDown len =>
      obtain ⟨y, hy, rfl⟩ := Option.map_eq_some_iff.1 (Option.ite_none_right_eq_some.1 h).2
      obtain ⟨s, _, rfl⟩ := serverStep_some hy
      simp [writes, replies, returns, withServer]
  | head =>
      obtain ⟨t, _, h⟩ := Option.bind_eq_some_iff.1 h
      simpa [writes, replies, returns] using hclient h
  | deliverDown n =>
      simpa [writes, replies, returns] using hclient (Option.ite_none_right_eq_some.1 h).2
  | trailer =>
      obtain ⟨t, _, h⟩ := Option.bind_eq_some_iff.1 (Option.ite_none_right_eq_some.1 h).2
      simpa [writes, replies, returns] using hclient h
  | read =>
      obtain ⟨r, _, h⟩ := Option.bind_eq_some_iff.1 h
      simpa [writes, replies, returns] using hclient h

/-- What was written stays written. -/
theorem Small.of_step {e : DuplexEvent} (hs : Small m maxResponseSize k x')
    (h : step z x e = some x') : Small m maxResponseSize k x := by
  obtain ⟨hw, ha, _⟩ := logs_step h
  refine ⟨fun p hp => hs.written p ?_, fun p hp => hs.answers p ?_⟩
  · rw [show x'.requestSide.written = _ from hw]
    exact List.mem_append_left _ hp
  · rw [show x'.responseSide.answers = _ from ha]
    exact List.mem_append_left _ hp

end Steps

/-! ## What the two ends read -/

/-- What the two ends of a bidirectional call may rely on, in every state: the handler reads what
the caller wrote, and the end only once it was declared; the caller reads what the handler wrote,
and an end or a status only once the handler has returned it. -/
structure Exchanged (x : Duplex) : Prop where
  handlerReads : x.server.results <+: x.written.map .message ++
    if x.doneIssued then List.replicate x.server.results.length .eos else []
  callerReads : x.results <+: x.answers.map .message ++
    (x.returned.elim [] fun s => List.replicate x.results.length (streamEnd s))
  finish : ∃ r, x.client.call.reader = some r ∧ ∀ t, r.finish = some t → x.returned = some t
  trailers : tracedTrailers x.server.trace =
    if x.down.eof then (x.returned.elim [] fun s => [buildTrailers s [] []]) else []

theorem DuplexInvariant.exchanged {m maxResponseSize k : Nat} {x : Duplex}
    (hx : DuplexInvariant m maxResponseSize k x) (hs : Small m maxResponseSize k x) :
    Exchanged x := by
  obtain ⟨hreads, hfinish, htrailers⟩ := hx.response.delivered hs.answers
  exact ⟨hx.request.reads hs.written, hreads, hfinish, htrailers⟩

/-! ## The start -/

/-- The response of a call whose handler is spawned. -/
theorem start_registered {z : Zlib} {c : BidiStreamingCallState} {req : Request}
    (h : (c.start z req).2.2 = true) : ∃ serverCtx timer, c.start z req =
      ({ c with ctx := serverCtx, timer := timer, responded := true },
        [.writeHead 200 (streamHead z serverCtx), .endWith], true) := by
  simp only [BidiStreamingCallState.start] at h ⊢
  split at h
  · cases h
  · rename_i hok
    rw [if_neg hok]
    exact ⟨_, _, rfl⟩

theorem duplexInvariant_start (z : Zlib) (ctx : Option ClientContext) (id : StreamId)
    (m maxMetadataSize maxResponseSize : Nat) (peerIdentity : Bytes) (req : Request)
    (hreg : ((BidiStreamingCallState.new m maxMetadataSize maxResponseSize peerIdentity).start z
      req).2.2 = true) :
    DuplexInvariant m maxResponseSize (maxReceiveMessageSize ctx) (start z ctx id
      (.new m maxMetadataSize maxResponseSize peerIdentity) req) := by
  obtain ⟨serverCtx, timer, hstart⟩ := start_registered hreg
  have hkind : CallKind.bidi ≠ .serverStreaming ∧ CallKind.bidi ≠ .clientStreaming := by decide
  have hup := RequestSide.sound_start hkind.1 ctx id m maxMetadataSize maxResponseSize peerIdentity
  have hdown := Download.downloadInvariant_start z hkind.2 ctx id serverCtx maxResponseSize []
    Status.okStatus
  refine ⟨?_, ⟨?_, ?_⟩, ?_, ?_, ?_, ?_⟩
  all_goals rw [start, hstart]
  · exact hup.setServer rfl rfl rfl
  · exact hdown
  all_goals rfl

/-- The logs hold what the events of a run write and return. -/
theorem logs_run {z : Zlib} {x x' : Duplex} {es : List DuplexEvent}
    (h : (machine z).run x es = some x') :
    x'.written = x.written ++ es.flatMap writes ∧ x'.answers = x.answers ++ es.flatMap replies ∧
      x'.returned = (es.flatMap returns).getLast?.or x.returned :=
  ⟨Machine.run_ledger (f := written) (g := writes) (fun _ _ _ hs => (logs_step hs).1) h,
    Machine.run_ledger (f := answers) (g := replies) (fun _ _ _ hs => (logs_step hs).2.1) h,
    Machine.run_getLast? (f := returned) (g := returns) (fun _ _ _ hs => (logs_step hs).2.2) h⟩

/-- **Every run keeps both directions**, as long as the messages keep their limits. -/
theorem DuplexInvariant.run {m maxResponseSize k : Nat} {z : Zlib} {x x' : Duplex}
    {es : List DuplexEvent} (hx : DuplexInvariant m maxResponseSize k x)
    (h : (machine z).run x es = some x') (hs : Small m maxResponseSize k x') :
    DuplexInvariant m maxResponseSize k x' := by
  refine Machine.run_invariant (M := machine z)
    (I := fun y => Small m maxResponseSize k y → DuplexInvariant m maxResponseSize k y)
    (fun y e y' hy hstep hs' => ?_) es x x' (fun _ => hx) h hs
  have hsmall : Small m maxResponseSize k y := hs'.of_step hstep
  exact duplexInvariant_step (hy hsmall) hs' hsmall hstep

/-- What holds in every state a call reaches while the messages keep their limits. -/
theorem duplexInvariant_reached {z : Zlib} {ctx : Option ClientContext} {id : StreamId}
    {m maxMetadataSize maxResponseSize : Nat} {peerIdentity : Bytes} {req : Request}
    (hreg : ((BidiStreamingCallState.new m maxMetadataSize maxResponseSize peerIdentity).start z
      req).2.2 = true) {es : List DuplexEvent} {x : Duplex}
    (hup : ∀ p ∈ es.flatMap writes, p.length ≤ m ∧ p.length < 2 ^ 32)
    (hdown : ∀ p ∈ es.flatMap replies, p.length ≤ maxResponseSize ∧
      p.length ≤ maxReceiveMessageSize ctx ∧ p.length < 2 ^ 32)
    (h : (machine z).run (start z ctx id
      (.new m maxMetadataSize maxResponseSize peerIdentity) req) es = some x) :
    DuplexInvariant m maxResponseSize (maxReceiveMessageSize ctx) x ∧
      Small m maxResponseSize (maxReceiveMessageSize ctx) x := by
  obtain ⟨hw, ha, _⟩ := logs_run h
  have hsmall : Small m maxResponseSize (maxReceiveMessageSize ctx) x :=
    ⟨fun p hp => hup p (by
        rw [show x.requestSide.written = _ from hw] at hp
        simpa [start] using hp),
      fun p hp => hdown p (by
        rw [show x.responseSide.answers = _ from ha] at hp
        simpa [start] using hp)⟩
  exact ⟨(duplexInvariant_start z ctx id m maxMetadataSize maxResponseSize peerIdentity req
    hreg).run h hsmall, hsmall⟩

/-- **Both directions of a bidirectional call at once.** In every state a call can reach, however
the writes, reads and the return of the two ends are interleaved with the closures, polls and
deliveries: each end reads a prefix of what the other has written, in order, and then its end. -/
theorem duplex_exchange (z : Zlib) (ctx : Option ClientContext) (id : StreamId)
    (maxMessageSize maxMetadataSize maxResponseSize : Nat) (peerIdentity : Bytes) (req : Request)
    (hreg : ((BidiStreamingCallState.new maxMessageSize maxMetadataSize maxResponseSize
      peerIdentity).start z req).2.2 = true) {es : List DuplexEvent} {x : Duplex}
    (hup : ∀ p ∈ es.flatMap writes, p.length ≤ maxMessageSize ∧ p.length < 2 ^ 32)
    (hdown : ∀ p ∈ es.flatMap replies, p.length ≤ maxResponseSize ∧
      p.length ≤ maxReceiveMessageSize ctx ∧ p.length < 2 ^ 32)
    (h : (machine z).run (start z ctx id
      (.new maxMessageSize maxMetadataSize maxResponseSize peerIdentity) req) es = some x) :
    x.written = es.flatMap writes ∧ x.answers = es.flatMap replies ∧
      x.returned = (es.flatMap returns).getLast? ∧ Exchanged x := by
  obtain ⟨hw, ha, hr⟩ := logs_run h
  obtain ⟨hx, hsmall⟩ := duplexInvariant_reached hreg hup hdown h
  exact ⟨by simpa [start] using hw, by simpa [start] using ha, by simpa [start] using hr,
    hx.exchanged hsmall⟩

/-- The handler answers what it has read before the caller declares the end, and returns. -/
def exampleDuplex : List DuplexEvent :=
  [.write [7], .runStrand, .pollUp 9, .deliverUp 4, .handlerRead, .deliverUp 2, .handlerRead,
    .answer [8, 9], .head, .pollDown 9, .deliverDown 7, .runStrand, .read, .writesDone, .read,
    .runStrand, .handlerReturn (some (Status.of .aborted (text "later"))), .pollUp 1, .halfClose,
    .pollDown 1, .trailer, .runStrand, .read]

theorem duplex_exchange_example :
    ∃ x, (machine Zlib.none).run (start Zlib.none none 1 (.new 100 100 100 []) ⟨[], []⟩)
        exampleDuplex = some x ∧
      x.server.results = [.message [7]] ∧
      x.results = [.message [8, 9], .error (Status.of .aborted (text "later"))] ∧
      x.written = [[7]] ∧ x.answers = [[8, 9]] ∧
      x.returned = some (Status.of .aborted (text "later")) ∧ Exchanged x := by
  have hrun : ((machine Zlib.none).run (start Zlib.none none 1 (.new 100 100 100 []) ⟨[], []⟩)
      exampleDuplex).map (fun x => (x.server.results, x.results)) = some ([.message [7]],
        [.message [8, 9], .error (Status.of .aborted (text "later"))]) := by decide +kernel
  obtain ⟨x, hx, hres⟩ := Option.map_eq_some_iff.1 hrun
  obtain ⟨hreads, hanswers⟩ := Prod.mk.inj hres
  exact ⟨x, hx, hreads, hanswers, duplex_exchange Zlib.none none 1 100 100 100 [] ⟨[], []⟩
    (by decide) (by decide) (by decide) hx⟩

end Duplex

end Rpcpio.Stream
