import Rpcpio.Stream.RequestSide
import Rpcpio.Stream.UnaryRefusal

/-!
# The answer of a client-streaming call

A client-streaming call is answered once, when its handler returns: by a header block, one message
and trailers, or by a header block with the status alone (`CarriesOutcome`). At the caller's end the
message is kept by the writer, and the status is published by the closure of the trailers on the
strand, or by a closure on the `io_context`. `AnswerAt` is the part of the client that the answer
changes; the caller's own stream leaves it alone.
-/

set_option autoImplicit false

namespace Rpcpio.Stream

open Rpcpio.Library Rpcpio.Protocol Rpcpio.Client Rpcpio.Server

/-! ## Outcomes and replies -/

/-- What a handler's result comes to at the caller's end: the status, and the response if there is
one. -/
def outcome (maxResponseSize : Nat) (r : HandlerResult) : Status × Option Bytes :=
  if !(handlerStatus r.status).isOk then (handlerStatus r.status, none)
  else if maxResponseSize < r.respBytes.length then (responseTooLarge, none)
  else (handlerStatus r.status, some r.respBytes)

/-- A reply that carries an outcome: a status in the header block, or a message with the status in
the trailers behind it. -/
inductive CarriesOutcome : Reply → Status × Option Bytes → Prop
  | status {s : Status} {head : HeaderMap}
      (hhead : headVerdict ⟨200, head⟩ = .trailersOnly s) : CarriesOutcome ⟨head, none⟩ (s, none)
  | message {s : Status} {q : Bytes} {head trailers : HeaderMap}
      (hhead : headVerdict ⟨200, head⟩ = .accepted) (ht : extractTrailerStatus trailers = s) :
      CarriesOutcome ⟨head, some ⟨frameOf q, 0, trailers⟩⟩ (s, some q)

/-- A header block that refuses a call is one of a status alone. -/
theorem Refuses.verdict {s : Status} {headers : HeaderMap} (h : Refuses s headers) :
    headVerdict ⟨200, headers⟩ = .trailersOnly s := by
  simp [headVerdict, h.grpc, h.status, h.extract]

/-- **The reply to a handler's result carries its outcome.** -/
theorem handlerReturned_carries {z : Zlib} {c : ClientStreamingCallState} {r : HandlerResult}
    (hresp : c.responded = false)
    (hlen : ∀ q, (outcome c.maxResponseSize r).2 = some q → q.length < 2 ^ 32) :
    ∃ c' reply, c.handlerReturned z r = (c', some reply) ∧ c'.responded = true ∧
      c'.closed = c.closed ∧ c'.maxResponseSize = c.maxResponseSize ∧
      CarriesOutcome reply (outcome c.maxResponseSize r) := by
  cases hs : (handlerStatus r.status).isOk with
  | false =>
      have hrefuses := refuses_buildTrailers (z := z) (handlerStatus r.status)
        c.ctx.initialMetadata c.ctx.trailingMetadata
      have hout : outcome c.maxResponseSize r = (handlerStatus r.status, none) := by
        simp [outcome, hs]
      refine ⟨{ c with timer := c.timer.cancel, responded := true }, _, ?_, rfl, rfl, rfl,
        by rw [hout]; exact .status hrefuses.verdict⟩
      simp [ClientStreamingCallState.handlerReturned, ClientStreamingCallState.sendResponse, hresp,
        hs]
  | true =>
      by_cases hlarge : c.maxResponseSize < r.respBytes.length
      · -- an empty response is not over any limit
        have hne : r.respBytes ≠ [] := by
          intro hnil
          rw [hnil, List.length_nil] at hlarge
          exact Nat.not_lt_zero _ hlarge
        have hrefuses := refuses_buildTrailers (z := z) responseTooLarge [] []
        have hout : outcome c.maxResponseSize r = (responseTooLarge, none) := by
          simp [outcome, hs, hlarge]
        refine ⟨{ c with timer := c.timer.cancel.cancel, responded := true }, _, ?_, rfl, rfl, rfl,
          by rw [hout]; exact .status hrefuses.verdict⟩
        simp [ClientStreamingCallState.handlerReturned, ClientStreamingCallState.sendResponse,
          hresp, hs, hne, hlarge, errorReply, metadataToNghttp2Headers]
      · have hout : outcome c.maxResponseSize r = (handlerStatus r.status, some r.respBytes) := by
          simp [outcome, hs, hlarge]
        refine ⟨{ c with timer := c.timer.cancel, responded := true },
          ⟨streamHead z c.ctx, some ⟨frameOf r.respBytes, 0,
            buildTrailers (handlerStatus r.status) c.ctx.trailingMetadata []⟩⟩, ?_, rfl, rfl, rfl,
          by
            rw [hout]
            exact .message (headVerdict_streamHead z c.ctx)
              (extractTrailerStatus_buildTrailers _ _ rfl rfl rfl)⟩
        have hframe := encodeFrame_frameOf (hlen _ (congrArg Prod.snd hout))
        simp [ClientStreamingCallState.handlerReturned, ClientStreamingCallState.sendResponse,
          hresp, hs, hlarge, hframe, streamHead]

/-! ## The client's end -/

/-- The response that a writer has kept. -/
def singleResponse (w : RawClientWriterImpl) : Option Bytes :=
  if w.hasResponse then some w.responseBytes else none

/-- What the answer's side of a client call consists of: the parser, the response kept and the final
status, the closures queued on the strand and on the `io_context`, and how far the answer has
come. -/
structure AnswerView where
  lpm : LpmReader
  response : Option Bytes
  finish : Option Status
  tasks : List StrandTask
  ioc : List IocTask
  headersArrived : Bool
  accepted : Bool
  trailersArrived : Bool
  closed : Bool

/-- Nothing of the answer has arrived. -/
def AnswerView.new : AnswerView := ⟨LpmReader.new, none, none, [], [], false, false, false, false⟩

/-- The client of a client-streaming call has an open stream, with this answer's side. -/
structure AnswerAt (k : Nat) (c : StreamingCall) (v : AnswerView) : Prop where
  reader : c.call.reader = none
  writer : c.call.writer.map (fun w => (w.finish, singleResponse w)) = some (v.finish, v.response)
  lpm : c.call.lpm = v.lpm
  context : maxReceiveMessageSize c.call.ctx = k
  closed : c.call.closed = v.closed
  submitted : c.submitted = true
  streamId : c.streamId.isSome = true
  sessionClosed : c.sessionClosed = false
  strand : c.strand.filter isDownloadTask = v.tasks
  tasks : ∀ t ∈ c.strand, isDownloadTask t = true ∨ isUploadTask t = true
  ioc : c.ioc = v.ioc
  limit : c.dataLimit = if v.accepted then some k else none
  headersArrived : c.headersArrived = v.headersArrived
  trailersArrived : c.trailersArrived = v.trailersArrived

theorem singleResponse_clientWriterGenerator (w : RawClientWriterImpl) (len : Nat) :
    singleResponse (w.clientWriterGenerator len).1 = singleResponse w := by
  unfold RawClientWriterImpl.clientWriterGenerator
  split
  · split <;> rfl
  · dsimp only
    split <;> rfl

namespace AnswerAt

variable {k : Nat} {c c' : StreamingCall} {v : AnswerView}

theorem isOpen (h : AnswerAt k c v) : c.isOpen = true := by
  simp [StreamingCall.isOpen, h.streamId, h.sessionClosed]

/-- The writer, as the caller sees it. -/
theorem view (h : AnswerAt k c v) {w : RawClientWriterImpl} (hw : c.call.writer = some w) :
    w.finish = v.finish ∧ singleResponse w = v.response := by
  have hview := h.writer
  rw [hw, Option.map_some, Option.some.injEq] at hview
  exact Prod.mk.inj hview

/-- A closure is posted. -/
theorem post (h : AnswerAt k c v) {t : StrandTask}
    (ht : isDownloadTask t = true ∨ isUploadTask t = true) :
    AnswerAt k (c.post t) { v with tasks := v.tasks ++ [t].filter isDownloadTask } := by
  refine { h with strand := ?_, tasks := fun t' ht' => ?_ }
  · rw [StreamingCall.post, List.filter_append, h.strand]
  · rcases List.mem_append.1 ht' with ht' | ht'
    · exact h.tasks t' ht'
    · rw [List.mem_singleton.1 ht']
      exact ht

/-- A header block arrives that begins a response. -/
theorem accept (h : AnswerAt k c v) {head : ResponseHead} (hhead : headVerdict head = .accepted)
    (hc : c.step (.response head) = some c') :
    v.headersArrived = false ∧ c'.strand = c.strand ∧
      AnswerAt k c' { v with headersArrived := true, accepted := true } := by
  simp only [StreamingCall.step, Option.ite_none_right_eq_some, Option.some.injEq,
    Bool.and_eq_true, Bool.not_eq_true'] at hc
  obtain ⟨⟨_, hnew⟩, rfl⟩ := hc
  have heq : c.call.attach head = (c.call, [], some k) := by
    rw [StreamingCallState.attach, hhead, h.context]
  refine ⟨h.headersArrived.symm.trans hnew, rfl, ?_⟩
  simp only [StreamingCall.onResponse, heq, StreamingCall.after, StreamingCall.log,
    List.append_nil]
  exact { h with limit := rfl, headersArrived := rfl }

/-- A header block arrives that is the whole answer. -/
theorem refuse (h : AnswerAt k c v) {head : ResponseHead} {s : Status}
    (hhead : headVerdict head = .trailersOnly s) (hc : c.step (.response head) = some c') :
    v.headersArrived = false ∧ c'.strand = c.strand ∧
      AnswerAt k c' { v with
        headersArrived := true
        accepted := false
        ioc := v.ioc ++ [.trailersOnly s] } := by
  simp only [StreamingCall.step, Option.ite_none_right_eq_some, Option.some.injEq,
    Bool.and_eq_true, Bool.not_eq_true'] at hc
  obtain ⟨⟨_, hnew⟩, rfl⟩ := hc
  have heq : c.call.attach head = (c.call, [.trailersOnly s], none) := by
    rw [StreamingCallState.attach, hhead]
  refine ⟨h.headersArrived.symm.trans hnew, rfl, ?_⟩
  simp only [StreamingCall.onResponse, heq, StreamingCall.after, StreamingCall.log]
  exact { h with limit := rfl, headersArrived := rfl, ioc := congrArg (· ++ _) h.ioc }

/-- A chunk is posted to the strand. -/
theorem data (h : AnswerAt k c v) {chunk : Bytes} (hne : chunk ≠ [])
    (hc : c.step (.data chunk) = some c') :
    v.accepted = true ∧ c' = c.post (.data k chunk) := by
  have hemp : chunk.isEmpty = false := by simpa using hne
  cases hacc : v.accepted with
  | false => simp [StreamingCall.step, h.limit, hacc] at hc
  | true =>
      simp only [StreamingCall.step, h.limit, hacc, if_true, h.isOpen, hemp, Bool.false_eq_true,
        if_false, Option.some.injEq] at hc
      exact ⟨rfl, hc.symm⟩

/-- The trailers are posted to the strand. -/
theorem trailers (h : AnswerAt k c v) {t : HeaderMap} (hc : c.step (.trailers t) = some c') :
    v.accepted = true ∧ v.trailersArrived = false ∧
      c' = StreamingCall.post { c with trailersArrived := true } (.trailers t) := by
  simp only [StreamingCall.step, Option.ite_none_right_eq_some, Option.some.injEq,
    Bool.and_eq_true, Bool.not_eq_true'] at hc
  obtain ⟨⟨⟨_, hlimit⟩, hnew⟩, rfl⟩ := hc
  refine ⟨?_, h.trailersArrived.symm.trans hnew, rfl⟩
  cases hacc : v.accepted with
  | true => rfl
  | false => simp [h.limit, hacc] at hlimit

/-- An event of the caller's own stream leaves the answer's side alone. -/
theorem upload (h : AnswerAt k c v) {e : CallEvent} (he : isUploadEvent e = true)
    (hstep : c.step e = some c') : AnswerAt k c' v := by
  cases e with
  | write payload =>
      simp only [StreamingCall.step, Option.ite_none_right_eq_some, Option.some.injEq] at hstep
      obtain ⟨_, rfl⟩ := hstep
      split
      · exact h
      · simpa [isDownloadTask] using h.post (t := .enqueue _) (Or.inr rfl)
  | writesDone =>
      simp only [StreamingCall.step, Option.ite_none_right_eq_some, Option.some.injEq] at hstep
      obtain ⟨_, rfl⟩ := hstep
      simpa [isDownloadTask] using h.post (t := .writesDone) (Or.inr rfl)
  | poll len =>
      simp only [StreamingCall.step, Option.ite_none_right_eq_some, Option.some.injEq] at hstep
      obtain ⟨_, rfl⟩ := hstep
      refine { h with writer := ?_ }
      rw [← h.writer, Option.map_map]
      congr 1
      funext w
      simp [singleResponse_clientWriterGenerator]
  | submit | response | data | trailers | close | runStrand | runIoc | expire | timerHandler | read
  | cancel | goaway | shutdown => cases he

/-- The closure at the front of the strand is taken off. -/
theorem tail (h : AnswerAt k c v) {t : StrandTask} {rest : List StrandTask}
    (hs : c.strand = t :: rest) :
    AnswerAt k { c with strand := rest } { v with tasks := rest.filter isDownloadTask } :=
  { h with
    strand := rfl
    tasks := fun t' ht' => h.tasks t' (by rw [hs]; exact List.mem_cons_of_mem _ ht') }

/-- A closure of the caller's own stream runs. -/
theorem runUpload (h : AnswerAt k c v) {t : StrandTask} (ht : isUploadTask t = true) :
    AnswerAt k (c.runTask t) v := by
  have hwriter (f : RawClientWriterImpl → RawClientWriterImpl × List RequestCall)
      (hf : ∀ w, (f w).1.finish = w.finish ∧ singleResponse (f w).1 = singleResponse w) :
      AnswerAt k (c.onWriter f) v := by
    have hw := h.writer
    simp only [StreamingCall.onWriter]
    split
    · exact h
    · rename_i w hsome
      rw [hsome] at hw
      refine { h with writer := ?_ }
      rw [← hw]
      exact congrArg some (Prod.ext (hf w).1 (hf w).2)
  cases t with
  | enqueue frame => exact hwriter _ fun w => ⟨rfl, rfl⟩
  | writesDone => exact hwriter _ fun w => ⟨rfl, rfl⟩
  | data | trailers | close | cancel | deadline => cases ht

/-- The closure of a chunk that parses: the last message is kept. -/
theorem runData (h : AnswerAt k c v) {chunk : Bytes} (hopen : v.closed = false)
    (hok : (v.lpm.feed k chunk).status = Status.okStatus) :
    AnswerAt k (c.runTask (.data k chunk)) { v with
      lpm := (v.lpm.feed k chunk).parser
      response := (v.lpm.feed k chunk).messages.getLast?.or v.response } := by
  have hw := h.writer
  obtain ⟨w, hsome, hview⟩ := Option.map_eq_some_iff.1 hw
  obtain ⟨hfin, hresp⟩ := Prod.mk.inj hview
  have hopen' : c.call.closed = false := h.closed.trans hopen
  obtain ⟨hreader, hwriter⟩ := foldl_deliver_writer
    (c := { c.call with lpm := (v.lpm.feed k chunk).parser }) h.reader hsome
    (v.lpm.feed k chunk).messages
  have hframe := foldl_deliver_flags { c.call with lpm := (v.lpm.feed k chunk).parser }
    (v.lpm.feed k chunk).messages
  have hctx : ((v.lpm.feed k chunk).messages.foldl StreamingCallState.deliver
      { c.call with lpm := (v.lpm.feed k chunk).parser }).ctx = c.call.ctx :=
    StreamingCallState.foldl_deliver_frame (f := (·.ctx))
      (fun c p => by simp only [StreamingCallState.deliver]; split <;> rfl) _ _
  have hdata : c.call.onData k chunk = ((v.lpm.feed k chunk).messages.foldl
      StreamingCallState.deliver { c.call with lpm := (v.lpm.feed k chunk).parser }, []) := by
    rw [StreamingCallState.onData, if_neg (by simp [hopen'])]
    simp only [h.lpm, hok, Status.isOk_okStatus, if_true]
  simp only [StreamingCall.runTask, hdata, StreamingCall.after, List.append_nil]
  refine { h with
    reader := hreader
    writer := ?_
    lpm := hframe.2
    context := (congrArg _ hctx).trans h.context
    closed := hframe.1.trans h.closed }
  rw [hwriter, Option.map_some]
  refine congrArg some (Prod.ext hfin ?_)
  rw [← hresp]
  cases hmsgs : (v.lpm.feed k chunk).messages.getLast? with
  | none => simp [singleResponse, List.getLast?_eq_none_iff.1 hmsgs]
  | some p =>
      have hne : (v.lpm.feed k chunk).messages ≠ [] := by
        intro hnil
        rw [hnil] at hmsgs
        cases hmsgs
      simp [singleResponse, hne, hmsgs]

/-- The closure of the trailers publishes their status. -/
theorem runTrailers (h : AnswerAt k c v) (hopen : v.closed = false) (t : HeaderMap) :
    AnswerAt k (c.runTask (.trailers t)) { v with finish := some (extractTrailerStatus t) } := by
  obtain ⟨w, hsome, hview⟩ := Option.map_eq_some_iff.1 h.writer
  have hopen' : c.call.closed = false := h.closed.trans hopen
  have htrailers : c.call.onTrailers t = c.call.maybeDeliverStatus (extractTrailerStatus t) := by
    rw [StreamingCallState.onTrailers, if_neg (by simp [hopen'])]
  simp only [StreamingCall.runTask, htrailers, StreamingCall.log]
  refine { h with reader := ?_, writer := ?_ }
  · simp [StreamingCallState.maybeDeliverStatus, StreamingCallState.setFinalStatus, h.reader]
  · simp only [StreamingCallState.maybeDeliverStatus, StreamingCallState.setFinalStatus, hsome,
      Option.map_some]
    exact congrArg some (Prod.ext rfl (Prod.mk.inj hview).2)

/-- The closure of a header block that is the whole answer publishes its status. -/
theorem runIoc (h : AnswerAt k c v) {s : Status} {i : Nat} (hopen : v.closed = false)
    (hioc : v.ioc = [.trailersOnly s]) (hc : c.step (.runIoc i) = some c') :
    c'.strand = c.strand ∧
      AnswerAt k c' { v with finish := some s, ioc := [], closed := true } := by
  obtain ⟨w, hsome, hview⟩ := Option.map_eq_some_iff.1 h.writer
  have hopen' : c.call.closed = false := h.closed.trans hopen
  have hioc' : c.ioc = [.trailersOnly s] := h.ioc.trans hioc
  cases i with
  | succ i => simp [StreamingCall.step, hioc'] at hc
  | zero =>
      simp only [StreamingCall.step, hioc', List.getElem?_cons_zero, Option.some.injEq] at hc
      subst hc
      refine ⟨rfl, { h with
        reader := ?_, writer := ?_, lpm := ?_, context := ?_, closed := ?_, ioc := rfl }⟩
      · simp [StreamingCall.log, StreamingCallState.runIoc, hopen',
          StreamingCallState.maybeDeliverStatus, StreamingCallState.setFinalStatus, h.reader]
      · simp only [StreamingCall.log, StreamingCallState.runIoc, hopen', Bool.false_eq_true,
          if_false, StreamingCallState.maybeDeliverStatus, StreamingCallState.setFinalStatus,
          hsome, Option.map_some]
        exact congrArg some (Prod.ext rfl (Prod.mk.inj hview).2)
      · simp [StreamingCall.log, StreamingCallState.runIoc, hopen',
          StreamingCallState.maybeDeliverStatus, StreamingCallState.setFinalStatus, h.lpm]
      · simp [StreamingCall.log, StreamingCallState.runIoc, hopen',
          StreamingCallState.maybeDeliverStatus, StreamingCallState.setFinalStatus, h.context]
      · simp [StreamingCall.log, StreamingCallState.runIoc, hopen',
          StreamingCallState.maybeDeliverStatus, StreamingCallState.setFinalStatus]

end AnswerAt

end Rpcpio.Stream
