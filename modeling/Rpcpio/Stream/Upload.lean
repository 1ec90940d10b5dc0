import Rpcpio.Client.StreamingCall
import Rpcpio.Protocol.StreamReceiving
import Rpcpio.Server.BidiStreamingCallState

/-!
# Streams from client to server

A client-streaming or bidirectional call between its two ends. The caller writes messages and then
declares the end; the closures run on the strand; the session polls the generator and is woken by
`resume`; the bytes reach the server's `OnData` in chunks of any size, and the half-close after
them; the handler reads whenever it likes. What is assumed of the session is that it polls a
generator only while it is not deferred and has not ended, delivers the bytes in order, and the
half-close last.
-/

set_option autoImplicit false

namespace Rpcpio.Stream

open Rpcpio.Library Rpcpio.Protocol Rpcpio.Client Rpcpio.Server

/-- The call state at the server. -/
inductive UploadServer where
  | clientStreaming (c : ClientStreamingCallState)
  | bidi (c : BidiStreamingCallState)
  deriving DecidableEq, Repr

namespace UploadServer

/-- The call state of a kind, with its limits. -/
def new (kind : CallKind) (maxMessageSize maxMetadataSize maxResponseSize : Nat)
    (peerIdentity : Bytes) : UploadServer :=
  match kind with
  | .clientStreaming =>
      .clientStreaming (.new maxMessageSize maxMetadataSize maxResponseSize peerIdentity)
  | _ => .bidi (.new maxMessageSize maxMetadataSize maxResponseSize peerIdentity)

/-- `OnData`. -/
def onData (z : Zlib) (chunk : Bytes) : UploadServer → UploadServer
  | .clientStreaming c => .clientStreaming (c.onData z chunk).1
  | .bidi c => .bidi (c.onData chunk).1

/-- `reader_impl_`. -/
def readerImpl : UploadServer → RawServerReaderImpl
  | .clientStreaming c => c.readerImpl
  | .bidi c => c.readerImpl

/-- `parser_`. -/
def parser : UploadServer → StreamingFrameParser
  | .clientStreaming c => c.parser
  | .bidi c => c.parser

/-- The call state after a read. -/
def setReader (r : RawServerReaderImpl) : UploadServer → UploadServer
  | .clientStreaming c => .clientStreaming { c with readerImpl := r }
  | .bidi c => .bidi { c with readerImpl := r }

/-- `OnData` ignores what arrives after a client-streaming call was answered. -/
def isListening : UploadServer → Bool
  | .clientStreaming c => !c.responded
  | .bidi _ => true

end UploadServer

/-- A call between its ends: the messages still to write, the client, the generator's state in the
session, the bytes emitted and those in flight, the server, and the results of the handler's
reads. -/
structure Upload where
  todo : List Bytes
  doneIssued : Bool
  client : StreamingCall
  deferred : Bool
  eof : Bool
  emitted : Bytes
  wire : Bytes
  halfClosed : Bool
  server : UploadServer
  results : List PopResult
  deriving DecidableEq, Repr

/-- What can happen to an upload. -/
inductive UploadEvent where
  | write
  | writesDone
  | runStrand
  | poll (len : Nat)
  | deliver (n : Nat)
  | halfClose
  | read
  deriving DecidableEq, Repr

/-- Whether `resume` was called between two states of a call. -/
def resumed (before after : StreamingCall) : Bool :=
  (after.trace.drop before.trace.length).contains (.request .resume)

namespace Upload

/-- An upload whose stream has been accepted. -/
def new (kind : CallKind) (ctx : Option ClientContext) (id : StreamId) (payloads : List Bytes)
    (server : UploadServer) : Upload where
  todo := payloads
  doneIssued := false
  client := (StreamingCall.new (kind.callState ctx)).submit (.accepted id)
  deferred := false
  eof := false
  emitted := []
  wire := []
  halfClosed := false
  server := server
  results := []

/-- What the session makes of a result of the generator. -/
def take (u : Upload) : GeneratorResult → Upload
  | .data bytes => { u with emitted := u.emitted ++ bytes, wire := u.wire ++ bytes }
  | .eof _ => { u with eof := true }
  | .deferred => { u with deferred := true }

/-- One event. -/
def step (z : Zlib) (u : Upload) : UploadEvent → Option Upload
  | .write =>
      match u.todo with
      | [] => none
      | p :: rest => (u.client.step (.write p)).map fun c => { u with todo := rest, client := c }
  | .writesDone =>
      if u.todo.isEmpty && !u.doneIssued then
        (u.client.step .writesDone).map fun c => { u with doneIssued := true, client := c }
      else none
  | .runStrand =>
      (u.client.step .runStrand).map fun c =>
        { u with client := c, deferred := u.deferred && !resumed u.client c }
  | .poll len =>
      if 0 < len && !u.deferred && !u.eof then
        u.client.call.writer.bind fun w =>
          (u.client.step (.poll len)).map fun c =>
            { u with client := c }.take (w.clientWriterGenerator len).2
      else none
  | .deliver n =>
      if 0 < n && n ≤ u.wire.length && !u.halfClosed then
        some { u with wire := u.wire.drop n, server := u.server.onData z (u.wire.take n) }
      else none
  | .halfClose =>
      if u.eof && u.wire.isEmpty && !u.halfClosed then
        some { u with halfClosed := true, server := u.server.onData z [] }
      else none
  | .read =>
      if u.server.readerImpl.queue.canPop then
        some { u with
          server := u.server.setReader u.server.readerImpl.read.1
          results := u.results ++ u.server.readerImpl.read.2.toList }
      else none

/-- The uploads as a machine. -/
def machine (z : Zlib) : Machine Upload UploadEvent := ⟨step z⟩

end Upload

/-! ## The client's end -/

/-- The client has an open stream with a writer and nothing else queued on its strand. -/
structure ClientAt (c : StreamingCall) (w : RawClientWriterImpl) (strand : List StrandTask) :
    Prop where
  writer : c.call.writer = some w
  req : w.req.isSome = true
  submitted : c.submitted = true
  streamId : c.streamId.isSome = true
  sessionClosed : c.sessionClosed = false
  strand : c.strand = strand

theorem ClientAt.isOpen {c : StreamingCall} {w : RawClientWriterImpl} {strand : List StrandTask}
    (h : ClientAt c w strand) : c.isOpen = true := by
  simp [StreamingCall.isOpen, h.streamId, h.sessionClosed]

/-- A write within the framing limit posts its frame. -/
theorem ClientAt.write {c : StreamingCall} {w : RawClientWriterImpl} {strand : List StrandTask}
    (h : ClientAt c w strand) {p : Bytes} (hp : p.length < 2 ^ 32) :
    ∃ c', c.step (.write p) = some c' ∧ ClientAt c' w (strand ++ [.enqueue (frameOf p)]) := by
  refine ⟨c.post (.enqueue (frameOf p)), ?_, h.writer, h.req, h.submitted, h.streamId,
    h.sessionClosed, ?_⟩
  · simp [StreamingCall.step, h.submitted, h.writer, RawClientWriterImpl.enqueue_ok hp]
  · simp [StreamingCall.post, h.strand]

theorem ClientAt.writesDone {c : StreamingCall} {w : RawClientWriterImpl}
    {strand : List StrandTask} (h : ClientAt c w strand) :
    ∃ c', c.step .writesDone = some c' ∧ ClientAt c' w (strand ++ [.writesDone]) := by
  refine ⟨c.post .writesDone, ?_, h.writer, h.req, h.submitted, h.streamId, h.sessionClosed, ?_⟩
  · simp [StreamingCall.step, h.submitted, h.writer]
  · simp [StreamingCall.post, h.strand]

/-- A writer closure with the request live runs and resumes the generator. -/
theorem ClientAt.runWriter {c : StreamingCall} {w w' : RawClientWriterImpl} {t : StrandTask}
    {rest : List StrandTask} (h : ClientAt c w (t :: rest))
    {f : RawClientWriterImpl → RawClientWriterImpl × List RequestCall}
    (hrun : ∀ v : StreamingCall, v.runTask t = v.onWriter f) (hf : f w = (w', [.resume]))
    (hreq : w'.req = w.req) :
    ∃ c', c.step .runStrand = some c' ∧ ClientAt c' w' rest ∧ resumed c c' = true := by
  have hstep : c.step .runStrand = some (StreamingCall.onWriter { c with strand := rest } f) := by
    rw [← hrun]
    simp only [StreamingCall.step, h.strand]
  refine ⟨_, hstep, ?_⟩
  simp only [StreamingCall.onWriter, h.writer, hf]
  refine ⟨⟨rfl, hreq ▸ h.req, h.submitted, h.streamId, h.sessionClosed, rfl⟩, ?_⟩
  simp [resumed, StreamingCall.log]

theorem ClientAt.runEnqueue {c : StreamingCall} {w : RawClientWriterImpl} {frame : Bytes}
    {rest : List StrandTask} (h : ClientAt c w (.enqueue frame :: rest)) :
    ∃ c', c.step .runStrand = some c' ∧
      ClientAt c' { w with pending := w.pending ++ [frame] } rest ∧ resumed c c' = true :=
  h.runWriter (f := fun x => x.enqueueOnStrand frame) (fun _ => rfl)
    (by simp [RawClientWriterImpl.enqueueOnStrand, RawClientWriterImpl.wake, h.req]) rfl

theorem ClientAt.runWritesDone {c : StreamingCall} {w : RawClientWriterImpl}
    {rest : List StrandTask} (h : ClientAt c w (.writesDone :: rest)) :
    ∃ c', c.step .runStrand = some c' ∧ ClientAt c' { w with writesDone := true } rest ∧
      resumed c c' = true :=
  h.runWriter (f := fun x => x.writesDoneOnStrand) (fun _ => rfl)
    (by simp [RawClientWriterImpl.writesDoneOnStrand, RawClientWriterImpl.wake, h.req]) rfl

theorem ClientAt.poll {c : StreamingCall} {w : RawClientWriterImpl} {strand : List StrandTask}
    (h : ClientAt c w strand) (len : Nat) :
    ∃ c', c.step (.poll len) = some c' ∧ ClientAt c' (w.clientWriterGenerator len).1 strand := by
  refine ⟨{ c with call := { c.call with
    writer := c.call.writer.map fun x => (x.clientWriterGenerator len).1 } }, ?_, ?_⟩
  · simp [StreamingCall.step, h.isOpen, h.writer]
  · refine ⟨by simp [h.writer], ?_, h.submitted, h.streamId, h.sessionClosed, h.strand⟩
    rw [RawClientWriterImpl.req_clientWriterGenerator]
    exact h.req

/-! ## The server's end -/

namespace UploadServer

/-- On a chunk that parses, `OnData` pushes its messages. -/
theorem onData_ok {z : Zlib} {s : UploadServer} {chunk : Bytes} (hl : s.isListening = true)
    (hne : chunk ≠ []) (hok : (s.parser.feed chunk).status = Status.okStatus) :
    (s.onData z chunk).parser = (s.parser.feed chunk).parser ∧
      (s.onData z chunk).readerImpl.queue =
        (s.parser.feed chunk).messages.foldl StreamMessageQueue.push s.readerImpl.queue ∧
      (s.onData z chunk).isListening = true := by
  have hemp : chunk.isEmpty = false := by simpa using hne
  cases s with
  | clientStreaming c =>
      have hresp : c.responded = false := by simpa [isListening] using hl
      have hok' : (c.parser.feed chunk).status.isOk = true := by
        rw [show (c.parser.feed chunk).status = Status.okStatus from hok]
        rfl
      simp [onData, ClientStreamingCallState.onData, hresp, hemp, hok', parser, readerImpl,
        isListening, RawServerReaderImpl.pushAll]
  | bidi c =>
      have hok' : (c.parser.feed chunk).status.isOk = true := by
        rw [show (c.parser.feed chunk).status = Status.okStatus from hok]
        rfl
      simp [onData, BidiStreamingCallState.onData, hemp, hok', parser, readerImpl,
        isListening, RawServerReaderImpl.pushAll]

/-- The half-close ends the queue. -/
theorem onData_halfClose {z : Zlib} {s : UploadServer} (hl : s.isListening = true) :
    (s.onData z []).parser = s.parser ∧
      (s.onData z []).readerImpl.queue = s.readerImpl.queue.setEos ∧
      (s.onData z []).isListening = true := by
  cases s with
  | clientStreaming c =>
      have hresp : c.responded = false := by simpa [isListening] using hl
      simp [onData, ClientStreamingCallState.onData, hresp, parser, readerImpl, isListening]
  | bidi c => simp [onData, BidiStreamingCallState.onData, parser, readerImpl, isListening]

@[simp] theorem parser_setReader (r : RawServerReaderImpl) (s : UploadServer) :
    (s.setReader r).parser = s.parser := by
  cases s <;> rfl

@[simp] theorem readerImpl_setReader (r : RawServerReaderImpl) (s : UploadServer) :
    (s.setReader r).readerImpl = r := by
  cases s <;> rfl

@[simp] theorem isListening_setReader (r : RawServerReaderImpl) (s : UploadServer) :
    (s.setReader r).isListening = s.isListening := by
  cases s <;> rfl

theorem fresh (kind : CallKind) (maxMessageSize maxMetadataSize maxResponseSize : Nat)
    (peerIdentity : Bytes) :
    (new kind maxMessageSize maxMetadataSize maxResponseSize peerIdentity).parser =
        StreamingFrameParser.new maxMessageSize ∧
      (new kind maxMessageSize maxMetadataSize maxResponseSize peerIdentity).readerImpl =
        RawServerReaderImpl.new ∧
      (new kind maxMessageSize maxMetadataSize maxResponseSize peerIdentity).isListening
        = true := by
  cases kind <;> exact ⟨rfl, rfl, rfl⟩

end UploadServer

end Rpcpio.Stream
