import Rpcpio.Stream.RequestSide

/-!
# A bidirectional call between its two ends

Both directions at once. The caller writes, declares the end and reads whenever it likes; the
handler reads, writes and returns whenever it likes, so what one end writes may depend on what it
has read from the other; the closures of both directions share the client's strand, and the server's
call state feeds the handler's queue and the generator of the response. No party cancels, no timer
expires and no stream is reset. What is assumed of the session is that it polls a generator only
while it is not deferred and has not ended, delivers the bytes of a direction in order, the
half-close after the request's bytes, and head, bytes and trailers of the response in this order.
-/

set_option autoImplicit false

namespace Rpcpio.Stream

open Rpcpio.Library Rpcpio.Protocol Rpcpio.Client Rpcpio.Server

/-- A call between its ends: the client and the server, the messages the caller has written and
whether it has declared their end, the messages the handler has written and the status it has
returned, the two directions, whether the half-close has arrived, and the results of the caller's
reads; those of the handler's reads are kept by the server. -/
structure Duplex where
  client : StreamingCall
  server : BidiStreamingCall
  written : List Bytes
  doneIssued : Bool
  answers : List Bytes
  returned : Option Status
  up : Wire
  down : Wire
  halfClosed : Bool
  results : List PopResult
  deriving DecidableEq, Repr

/-- What can happen to a bidirectional call. -/
inductive DuplexEvent where
  | write (p : Bytes)
  | writesDone
  | runStrand
  | pollUp (len : Nat)
  | deliverUp (n : Nat)
  | halfClose
  | handlerRead
  | answer (p : Bytes)
  | addMetadata (trailing : Bool) (key value : Bytes)
  | handlerReturn (status : Option Status)
  | pollDown (len : Nat)
  | head
  | deliverDown (n : Nat)
  | trailer
  | read
  deriving DecidableEq, Repr

namespace Duplex

/-- A call whose stream is accepted and whose request the server has started on. -/
def start (z : Zlib) (ctx : Option ClientContext) (id : StreamId) (c : BidiStreamingCallState)
    (req : Request) : Duplex where
  client := (StreamingCall.new (CallKind.bidi.callState ctx)).submit (.accepted id)
  server := ({ BidiStreamingCall.new c with
    started := true
    registered := (c.start z req).2.2
    running := (c.start z req).2.2 } : BidiStreamingCall).after
      ((c.start z req).1, (c.start z req).2.1)
  written := []
  doneIssued := false
  answers := []
  returned := none
  up := .idle
  down := .idle
  halfClosed := false
  results := []

/-- An event at the client. -/
def clientStep (x : Duplex) (e : CallEvent) : Option Duplex :=
  (x.client.step e).map fun c => { x with client := c }

/-- The call after an event at the server, which may wake the generator of the response. -/
def withServer (x : Duplex) (s : BidiStreamingCall) : Duplex :=
  { x with server := s, down := x.down.resume (responseResumed x.server.trace s.trace) }

/-- An event at the server. -/
def serverStep (z : Zlib) (x : Duplex) (e : BidiStreamingEvent) : Option Duplex :=
  (x.server.step z e).map x.withServer

/-- One event. -/
def step (z : Zlib) (x : Duplex) : DuplexEvent → Option Duplex
  | .write p =>
      if x.doneIssued then none else { x with written := x.written ++ [p] }.clientStep (.write p)
  | .writesDone =>
      if x.doneIssued then none else { x with doneIssued := true }.clientStep .writesDone
  | .runStrand =>
      (x.client.step .runStrand).map fun c =>
        { x with client := c, up := x.up.resume (resumed x.client c) }
  | .pollUp len =>
      if x.up.canPoll len then
        x.client.call.writer.bind fun w =>
          { x with up := x.up.take (w.clientWriterGenerator len).2 }.clientStep (.poll len)
      else none
  | .deliverUp n =>
      if 0 < n && n ≤ x.up.inFlight.length && !x.halfClosed then
        { x with up := x.up.deliver n }.serverStep z (.data (x.up.inFlight.take n))
      else none
  | .halfClose =>
      if x.up.eof && x.up.inFlight.isEmpty && !x.halfClosed then
        { x with halfClosed := true }.serverStep z (.data [])
      else none
  | .handlerRead => if x.server.running then x.serverStep z .read else none
  | .answer p =>
      if x.server.running then
        { x with answers := x.answers ++ [p] }.serverStep z (.perform (.write p))
      else none
  | .addMetadata trailing key value =>
      if x.server.running then x.serverStep z (.addMetadata trailing key value) else none
  | .handlerReturn status =>
      { x with returned := some (handlerStatus status) }.serverStep z (.handlerReturn status)
  | .pollDown len =>
      if x.down.canPoll len then
        (x.serverStep z (.poll len)).map fun y =>
          { y with down := y.down.take (x.server.call.writerImpl.generate len).2.1 }
      else none
  | .head => (writtenHeads x.server.trace).head?.bind fun h => x.clientStep (.response h)
  | .deliverDown n =>
      if 0 < n && n ≤ x.down.inFlight.length then
        { x with down := x.down.deliver n }.clientStep (.data (x.down.inFlight.take n))
      else none
  | .trailer =>
      if x.down.eof && x.down.inFlight.isEmpty then
        (tracedTrailers x.server.trace).head?.bind fun h => x.clientStep (.trailers h)
      else none
  | .read =>
      x.client.call.reader.bind fun r =>
        { x with results := x.results ++ r.read.2.toList }.clientStep .read

/-- The bidirectional calls as a machine. -/
def machine (z : Zlib) : Machine Duplex DuplexEvent := ⟨step z⟩

/-- The events of the connection and of the client's strand: what happens without the caller and the
handler doing anything. -/
def isTransport : DuplexEvent → Bool
  | .runStrand | .pollUp _ | .deliverUp _ | .halfClose => true
  | .pollDown _ | .head | .deliverDown _ | .trailer => true
  | _ => false

/-- No event of the connection or the strand is left. -/
def Quiescent (z : Zlib) (x : Duplex) : Prop := ∀ e, isTransport e = true → step z x e = none

/-- The messages an event writes at the caller's end. -/
def writes : DuplexEvent → List Bytes
  | .write p => [p]
  | _ => []

/-- The messages an event writes at the handler's end. -/
def replies : DuplexEvent → List Bytes
  | .answer p => [p]
  | _ => []

/-- The status an event returns. -/
def returns : DuplexEvent → List Status
  | .handlerReturn status => [handlerStatus status]
  | _ => []

/-! ## The two directions -/

/-- The direction from the caller to the handler. -/
def requestSide (x : Duplex) : RequestSide where
  client := x.client
  written := x.written
  doneIssued := x.doneIssued
  up := x.up
  halfClosed := x.halfClosed
  server := .bidi x.server.call
  results := x.server.results

/-- The direction from the handler to the caller. -/
def responseSide (x : Duplex) : ResponseSide where
  writer := x.server.call.writerImpl
  trace := x.server.trace
  answers := x.answers
  returned := x.returned
  down := x.down
  client := x.client
  results := x.results

end Duplex

end Rpcpio.Stream
