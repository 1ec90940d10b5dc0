import Rpcpio.Client.StreamingCall
import Rpcpio.Protocol.StreamReceiving
import Rpcpio.Server.RawServerImpls
import Rpcpio.Server.ServerContext

/-!
# Streams from server to client

A server-streaming or bidirectional call between its two ends, from the handler's first write on.
The handler writes messages and finishes with a status; the session polls the generator and is woken
by `resume`; the client gets the response head, the bytes in chunks of any size and then the
trailers, and handles them in closures on its strand, between the closures of its own writes; the
reader is read at any time. What is assumed of the session is that it polls a generator only while
it is not deferred and has not ended, delivers head, bytes and trailers in this order, and the
trailers unchanged.
-/

set_option autoImplicit false

namespace Rpcpio.Stream

open Rpcpio.Library Rpcpio.Protocol Rpcpio.Client Rpcpio.Server

/-- A call between its ends: the messages still to write, the status to finish with, the writer, the
head of the response, the generator's state in the session, the bytes emitted, the trailers written
and the bytes in flight, the client, and the results of the reads. -/
structure Download where
  todo : List Bytes
  status : Status
  writer : RawServerWriterImpl
  head : ResponseHead
  deferred : Bool
  eof : Bool
  emitted : Bytes
  trailers : List HeaderMap
  wire : Bytes
  client : StreamingCall
  results : List PopResult
  deriving DecidableEq, Repr

/-- What can happen to a download; `upload` is an event of the caller's own stream. -/
inductive DownloadEvent where
  | write
  | finish
  | poll (len : Nat)
  | head
  | deliver (n : Nat)
  | trailer
  | runStrand
  | read
  | upload (e : CallEvent)
  deriving DecidableEq, Repr

/-- The events of the caller's own stream. -/
def isUploadEvent : CallEvent → Bool
  | .write _ | .writesDone | .poll _ => true
  | _ => false

/-- The trailers written by calls on a response. -/
def writtenTrailers (calls : List ResponseCall) : List HeaderMap :=
  calls.filterMap fun
    | .writeTrailer h => some h
    | _ => none

namespace Download

/-- The download of a call whose stream is accepted and whose response head is written. -/
def start (z : Zlib) (kind : CallKind) (ctx : Option ClientContext) (id : StreamId)
    (serverCtx : ServerContext) (maxResponseSize : Nat) (payloads : List Bytes) (s : Status) :
    Download where
  todo := payloads
  status := s
  writer := RawServerWriterImpl.new maxResponseSize
  head := ⟨200, streamHead z serverCtx⟩
  deferred := false
  eof := false
  emitted := []
  trailers := []
  wire := []
  client := (StreamingCall.new (kind.callState ctx)).submit (.accepted id)
  results := []

/-- What the session makes of a result of the generator. -/
def take (d : Download) : GeneratorResult → Download
  | .data bytes => { d with emitted := d.emitted ++ bytes, wire := d.wire ++ bytes }
  | .eof _ => { d with eof := true }
  | .deferred => { d with deferred := true }

/-- The handler has used its writer. -/
def afterWriter (d : Download) (w : RawServerWriterImpl) (calls : List ResponseCall) : Download :=
  { d with writer := w, deferred := d.deferred && !calls.contains .resume }

/-- One event. -/
def step (d : Download) : DownloadEvent → Option Download
  | .write =>
      match d.todo with
      | [] => none
      | p :: rest =>
          some ({ d with todo := rest }.afterWriter (d.writer.write p).1 (d.writer.write p).2.2)
  | .finish =>
      if d.todo.isEmpty && !d.writer.finished then
        some (d.afterWriter (d.writer.finish d.status).1 (d.writer.finish d.status).2)
      else none
  | .poll len =>
      if 0 < len && !d.deferred && !d.eof then
        some ({ d with
          writer := (d.writer.generate len).1
          trailers := d.trailers ++ writtenTrailers (d.writer.generate len).2.2 }.take
            (d.writer.generate len).2.1)
      else none
  | .head => (d.client.step (.response d.head)).map fun c => { d with client := c }
  | .deliver n =>
      if 0 < n && n ≤ d.wire.length then
        (d.client.step (.data (d.wire.take n))).map fun c =>
          { d with wire := d.wire.drop n, client := c }
      else none
  | .trailer =>
      if d.eof && d.wire.isEmpty then
        d.trailers.head?.bind fun h =>
          (d.client.step (.trailers h)).map fun c => { d with client := c }
      else none
  | .runStrand => (d.client.step .runStrand).map fun c => { d with client := c }
  | .read =>
      d.client.call.reader.bind fun r =>
        (d.client.step .read).map fun c =>
          { d with client := c, results := d.results ++ r.read.2.toList }
  | .upload e =>
      if isUploadEvent e then (d.client.step e).map fun c => { d with client := c } else none

/-- The downloads as a machine. -/
def machine : Machine Download DownloadEvent := ⟨step⟩

end Download

/-! ## The head and the trailers -/

/-- The head of a streaming response is gRPC, whatever metadata the handler added. -/
theorem headVerdict_streamHead (z : Zlib) (ctx : ServerContext) :
    headVerdict ⟨200, streamHead z ctx⟩ = .accepted := by
  have htype : Multimap.find (text "content-type") (streamHead z ctx) =
      some (plain (text "application/grpc+proto")) := by
    rw [streamHead, find_common (by decide) (by decide), if_pos rfl]
  have hstatus : Multimap.find (text "grpc-status") (streamHead z ctx) = none :=
    find_common_eq_none (by decide) (by decide) (by decide) _
  have hgrpc : isGrpc (streamHead z ctx) = true := by
    rw [isGrpc, htype]
    decide
  simp [headVerdict, hgrpc, Multimap.contains, hstatus]

/-- The trailers of `Finish` carry its status. -/
theorem extractTrailerStatus_finish (s : Status) :
    extractTrailerStatus (buildTrailers s [] []) = s :=
  extractTrailerStatus_buildTrailers s [] rfl rfl rfl

/-! ## The client's end -/

/-- The closures of the response stream. -/
def isDownloadTask : StrandTask → Bool
  | .data _ _ | .trailers _ => true
  | _ => false

/-- The closures of the caller's own stream. -/
def isUploadTask : StrandTask → Bool
  | .enqueue _ | .writesDone => true
  | _ => false

/-- What the reader's side of a client call consists of: the context, the reader, the parser, the
queued closures of the response stream, and how far the response has come. -/
structure ReaderView where
  ctx : Option ClientContext
  reader : RawClientReaderImpl
  lpm : LpmReader
  tasks : List StrandTask
  headersArrived : Bool
  trailersArrived : Bool
  trailersDone : Bool

/-- The client has an open stream, with this reader's side. -/
structure ReaderAt (c : StreamingCall) (v : ReaderView) : Prop where
  reader : c.call.reader = some v.reader
  lpm : c.call.lpm = v.lpm
  context : c.call.ctx = v.ctx
  closed : c.call.closed = false
  submitted : c.submitted = true
  streamId : c.streamId.isSome = true
  sessionClosed : c.sessionClosed = false
  strand : c.strand.filter isDownloadTask = v.tasks
  tasks : ∀ t ∈ c.strand, isDownloadTask t = true ∨ isUploadTask t = true
  limit : c.dataLimit = if v.headersArrived then some (maxReceiveMessageSize v.ctx) else none
  headersArrived : c.headersArrived = v.headersArrived
  trailersArrived : c.trailersArrived = v.trailersArrived
  trailersDone : c.call.trailersDone = v.trailersDone

/-- A closure does not post to the strand. -/
theorem strand_runTask (c : StreamingCall) (t : StrandTask) : (c.runTask t).strand = c.strand := by
  have hwriter (f : RawClientWriterImpl → RawClientWriterImpl × List RequestCall) :
      (c.onWriter f).strand = c.strand := by
    simp only [StreamingCall.onWriter]
    split <;> rfl
  cases t with
  | data maxMsgSize chunk => rfl
  | trailers h => rfl
  | close errorCode => rfl
  | enqueue frame => exact hwriter _
  | writesDone => exact hwriter _
  | cancel =>
      simp only [StreamingCall.runTask, StreamingCall.cancelActive]
      split <;> rfl
  | deadline => rfl

namespace ReaderAt

variable {c c' : StreamingCall} {v : ReaderView}

theorem isOpen (h : ReaderAt c v) : c.isOpen = true := by
  simp [StreamingCall.isOpen, h.streamId, h.sessionClosed]

/-- A closure is posted. -/
theorem post (h : ReaderAt c v) {t : StrandTask}
    (ht : isDownloadTask t = true ∨ isUploadTask t = true) :
    ReaderAt (c.post t) { v with tasks := v.tasks ++ [t].filter isDownloadTask } := by
  refine { h with strand := ?_, tasks := fun t' ht' => ?_ }
  · rw [StreamingCall.post, List.filter_append, h.strand]
  · rcases List.mem_append.1 ht' with ht' | ht'
    · exact h.tasks t' ht'
    · rw [List.mem_singleton.1 ht']
      exact ht

/-- The response head. -/
theorem response (h : ReaderAt c v) {head : ResponseHead} (hhead : headVerdict head = .accepted)
    (hnew : v.headersArrived = false) :
    ∃ c', c.step (.response head) = some c' ∧ ReaderAt c' { v with headersArrived := true } ∧
      c'.strand = c.strand := by
  have hopen : c.headersArrived = false := h.headersArrived.trans hnew
  refine ⟨c.onResponse head, by simp [StreamingCall.step, h.isOpen, hopen], ?_⟩
  have heq : c.call.attach head = (c.call, [], some (maxReceiveMessageSize v.ctx)) := by
    rw [StreamingCallState.attach, hhead, h.context]
  refine ⟨?_, rfl⟩
  simp only [StreamingCall.onResponse, heq, StreamingCall.after, StreamingCall.log]
  exact { h with limit := rfl, headersArrived := rfl }

/-- A chunk is posted to the strand. -/
theorem data (h : ReaderAt c v) {chunk : Bytes} (hne : chunk ≠ [])
    (hhead : v.headersArrived = true) :
    c.step (.data chunk) = some (c.post (.data (maxReceiveMessageSize v.ctx) chunk)) := by
  have hemp : chunk.isEmpty = false := by simpa using hne
  simp [StreamingCall.step, h.limit, hhead, h.isOpen, hemp]

/-- The trailers are posted to the strand. -/
theorem trailers (h : ReaderAt c v) (t : HeaderMap) (hhead : v.headersArrived = true)
    (hnew : v.trailersArrived = false) :
    c.step (.trailers t) =
      some (StreamingCall.post { c with trailersArrived := true } (.trailers t)) := by
  simp [StreamingCall.step, h.limit, hhead, h.isOpen, h.trailersArrived, hnew]

/-- An event of the caller's own stream leaves the reader's side alone. -/
theorem upload (h : ReaderAt c v) {e : CallEvent} (he : isUploadEvent e = true)
    (hstep : c.step e = some c') : ReaderAt c' v := by
  cases e with
  | write payload =>
      simp only [StreamingCall.step, Option.ite_none_right_eq_some, Option.some.injEq] at hstep
      obtain ⟨_, rfl⟩ := hstep
      split
      · exact h
      · simpa [isDownloadTask] using h.post (t := .enqueue _) (Or.inr rfl)
  | writesDone =>
      simp only [StreamingCall.step, Option.ite_none_right_eq_some, Option.some.injEq] at hstep
      obtain ⟨_, rfl⟩ := hstep
      simpa [isDownloadTask] using h.post (t := .writesDone) (Or.inr rfl)
  | poll len =>
      simp only [StreamingCall.step, Option.ite_none_right_eq_some, Option.some.injEq] at hstep
      obtain ⟨_, rfl⟩ := hstep
      exact { h with }
  | submit | response | data | trailers | close | runStrand | runIoc | expire | timerHandler | read
  | cancel | goaway | shutdown => cases he

/-- The closure at the front of the strand is taken off. -/
theorem tail (h : ReaderAt c v) {t : StrandTask} {rest : List StrandTask}
    (hs : c.strand = t :: rest) :
    ReaderAt { c with strand := rest } { v with tasks := rest.filter isDownloadTask } :=
  { h with
    strand := rfl
    tasks := fun t' ht' => h.tasks t' (by rw [hs]; exact List.mem_cons_of_mem _ ht') }

/-- The writer of the caller's own stream is not the reader's business. -/
theorem runUpload (h : ReaderAt c v) {t : StrandTask} (ht : isUploadTask t = true) :
    ReaderAt (c.runTask t) v := by
  have hwriter (f : RawClientWriterImpl → RawClientWriterImpl × List RequestCall) :
      ReaderAt (c.onWriter f) v := by
    simp only [StreamingCall.onWriter]
    split
    · exact h
    · exact { h with }
  cases t with
  | enqueue frame => exact hwriter _
  | writesDone => exact hwriter _
  | data | trailers | close | cancel | deadline => cases ht

/-- Messages go to the reader's queue. -/
theorem foldl_deliver {call : StreamingCallState} {r : RawClientReaderImpl}
    (hr : call.reader = some r) (msgs : List Bytes) :
    msgs.foldl StreamingCallState.deliver call =
      { call with
        reader := some { r with msgQueue := msgs.foldl StreamMessageQueue.push r.msgQueue } } := by
  induction msgs generalizing call r with
  | nil =>
      obtain ⟨reader, writer, ctx, timer, lpm, closed, trailersDone⟩ := call
      exact congrArg (StreamingCallState.mk · writer ctx timer lpm closed trailersDone) hr
  | cons m msgs ih =>
      have hstep : call.deliver m =
          { call with reader := some { r with msgQueue := r.msgQueue.push m } } := by
        simp [StreamingCallState.deliver, hr]
      rw [List.foldl_cons, hstep, ih rfl]
      rfl

/-- The closure of a chunk that parses. -/
theorem runData (h : ReaderAt c v) {m : Nat} {chunk : Bytes}
    (hok : (v.lpm.feed m chunk).status = Status.okStatus) :
    ReaderAt (c.runTask (.data m chunk)) { v with
      lpm := (v.lpm.feed m chunk).parser
      reader := { v.reader with
        msgQueue := (v.lpm.feed m chunk).messages.foldl StreamMessageQueue.push
          v.reader.msgQueue } } := by
  have hdata : c.call.onData m chunk = ({ c.call with
      lpm := (v.lpm.feed m chunk).parser
      reader := some { v.reader with
        msgQueue := (v.lpm.feed m chunk).messages.foldl StreamMessageQueue.push
          v.reader.msgQueue } }, []) := by
    have hreader : StreamingCallState.reader { c.call with lpm := (v.lpm.feed m chunk).parser } =
        some v.reader := h.reader
    rw [StreamingCallState.onData, if_neg (by simp [h.closed])]
    simp only [h.lpm, hok, Status.isOk_okStatus, if_true]
    rw [foldl_deliver hreader]
  simp only [StreamingCall.runTask, hdata, StreamingCall.after, List.append_nil]
  exact { h with reader := rfl, lpm := rfl }

/-- The closure of the trailers publishes their status. -/
theorem runTrailers (h : ReaderAt c v) (t : HeaderMap) :
    ReaderAt (c.runTask (.trailers t)) { v with
      trailersDone := true
      reader := RawClientReaderImpl.setFinalStatus { v.reader with
        msgQueue := if (extractTrailerStatus t).isOk then v.reader.msgQueue.setEos
          else v.reader.msgQueue.setError (extractTrailerStatus t) }
          (extractTrailerStatus t) } := by
  have htrailers : c.call.onTrailers t = c.call.maybeDeliverStatus (extractTrailerStatus t) := by
    rw [StreamingCallState.onTrailers, if_neg (by simp [h.closed])]
  simp only [StreamingCall.runTask, htrailers, StreamingCall.log]
  refine { h with reader := ?_, trailersDone := rfl }
  simp [StreamingCallState.maybeDeliverStatus, StreamingCallState.setFinalStatus, h.reader]

/-- A read takes one pass of the queue. -/
theorem read (h : ReaderAt c v) (hpop : v.reader.msgQueue.canPop = true) :
    ∃ c', c.step .read = some c' ∧ ReaderAt c' { v with reader := v.reader.read.1 } ∧
      c'.strand = c.strand := by
  refine ⟨{ c with call := { c.call with reader := some v.reader.read.1 } }, ?_,
    { h with reader := rfl }, rfl⟩
  simp [StreamingCall.step, h.reader, h.submitted, hpop]

end ReaderAt

end Rpcpio.Stream
