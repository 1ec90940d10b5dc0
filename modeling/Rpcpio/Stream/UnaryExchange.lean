import Rpcpio.Client.CallState
import Rpcpio.Server.CallState

/-!
# A unary call between its two ends

The request message reaches `ServerCallState` in chunks of any size, the handler answers with OK,
the session polls the body generator with buffers of any size, and head, bytes and trailers reach
`ClientCallState`, which handles bytes and trailers in closures on its strand. No party cancels, no
timer expires and no stream is reset: a stream is closed only when its end has come. What is assumed
of the session is that it polls a generator only until it has ended, and delivers head, bytes and
trailers in this order, and the trailers unchanged.
-/

set_option autoImplicit false

namespace Rpcpio.Stream

open Rpcpio.Library Rpcpio.Protocol Rpcpio.Client Rpcpio.Server

/-- A call between its ends: the status and the response the handler returns, the request bytes in
flight, the server and the requests its handler was invoked with, the bytes emitted and those in
flight, and the client with the closures on its strand. -/
structure UnaryExchange where
  status : Status
  response : Bytes
  upstream : Bytes
  requestEnded : Bool
  server : ServerCall
  invocations : List Bytes
  eof : Bool
  emitted : Bytes
  wire : Bytes
  client : UnaryCompletion
  strand : List UnaryEvent
  headArrived : Bool
  registered : Bool
  dataEnded : Bool
  trailersArrived : Bool
  clientClosed : Bool
  deriving DecidableEq, Repr

/-- What can happen to a unary call. -/
inductive ExchangeEvent where
  | request (n : Nat)
  | requestEnd
  | addMetadata (trailing : Bool) (key value : Bytes)
  | handlerReturn
  | poll (len : Nat)
  | serverClose
  | head
  | deliver (n : Nat)
  | dataEnd
  | trailer
  | clientClose (errorCode : Nat)
  | runStrand
  | runIoc (i : Nat)
  deriving DecidableEq, Repr

/-- The response heads in a trace. -/
def writtenHeads (tr : List ResponseEffect) : List ResponseHead :=
  tr.filterMap fun
    | .call (.writeHead code h) => some ⟨code, h⟩
    | _ => none

/-- The trailers in a trace. -/
def tracedTrailers (tr : List ResponseEffect) : List HeaderMap :=
  tr.filterMap fun
    | .call (.writeTrailer h) => some h
    | _ => none

namespace UnaryExchange

/-- The exchange of a call whose request the server has started on and whose stream is accepted. -/
def start (z : Zlib) (ctx : Option ClientContext) (c : ServerCallState) (req : Request)
    (request : Bytes) (s : Status) (response : Bytes) : UnaryExchange where
  status := s
  response := response
  upstream := (encodeFrame 0 request).getD []
  requestEnded := false
  server := (({ ServerCall.new c with
    started := true
    registered := (c.start z req).2.2 } : ServerCall).after
      ((c.start z req).1, (c.start z req).2.1))
  invocations := []
  eof := false
  emitted := []
  wire := []
  client := { UnaryCompletion.new ctx with call := (ClientCallState.new ctx).armTimer }
  strand := []
  headArrived := false
  registered := false
  dataEnded := false
  trailersArrived := false
  clientClosed := false

/-- A chunk of request data arrives at the server; an empty one is the end of the request. -/
def serverData (z : Zlib) (x : UnaryExchange) (chunk : Bytes) : Option UnaryExchange :=
  (x.server.step z (.data chunk)).map fun s =>
    { x with
      server := s
      invocations := x.invocations ++ (x.server.call.onData z chunk).2.2.toList }

/-- What the session makes of a result of the generator. -/
def take (x : UnaryExchange) : GeneratorResult → UnaryExchange
  | .data bytes => { x with emitted := x.emitted ++ bytes, wire := x.wire ++ bytes }
  | .eof _ => { x with eof := true }
  | .deferred => x

/-- Post a closure to the client's strand. -/
def post (x : UnaryExchange) (e : UnaryEvent) : UnaryExchange :=
  { x with strand := x.strand ++ [e] }

/-- One event. -/
def step (z : Zlib) (x : UnaryExchange) : ExchangeEvent → Option UnaryExchange
  | .request n =>
      if 0 < n && n ≤ x.upstream.length then
        { x with upstream := x.upstream.drop n }.serverData z (x.upstream.take n)
      else none
  | .requestEnd =>
      if x.upstream.isEmpty && !x.requestEnded then
        { x with requestEnded := true }.serverData z []
      else none
  | .addMetadata trailing key value =>
      (x.server.step z (.addMetadata trailing key value)).map fun s => { x with server := s }
  | .handlerReturn =>
      (x.server.step z (.handlerReturn 0 ⟨some x.status, x.response⟩)).map fun s =>
        { x with server := s }
  | .poll len =>
      if 0 < len && !x.eof then
        x.server.body.bind fun b =>
          (x.server.step z (.poll len)).map fun s =>
            { x with server := s }.take (b.generate len).2.1
      else none
  | .serverClose =>
      if x.eof && !x.server.call.closed then
        (x.server.step z .close).map fun s => { x with server := s }
      else none
  | .head =>
      if x.headArrived then none
      else
        (writtenHeads x.server.trace).head?.bind fun h =>
          ((UnaryCompletion.machine z).step x.client (.attach h)).map fun c =>
            { x with
              client := c
              headArrived := true
              registered := (x.client.call.attach z h).2.2 }
  | .deliver n =>
      if x.registered && 0 < n && n ≤ x.wire.length then
        some ({ x with wire := x.wire.drop n }.post (.data (x.wire.take n)))
      else none
  | .dataEnd =>
      if x.registered && x.eof && x.wire.isEmpty && !x.dataEnded then
        some ({ x with dataEnded := true }.post (.data []))
      else none
  | .trailer =>
      if x.registered && x.eof && x.wire.isEmpty && !x.trailersArrived then
        (tracedTrailers x.server.trace).head?.map fun h =>
          { x with trailersArrived := true }.post (.trailers h)
      else none
  | .clientClose errorCode =>
      if x.trailersArrived && !x.clientClosed then
        some ({ x with clientClosed := true }.post (.close errorCode))
      else none
  | .runStrand =>
      match x.strand with
      | [] => none
      | e :: rest =>
          ((UnaryCompletion.machine z).step x.client e).map fun c =>
            { x with strand := rest, client := c }
  | .runIoc i =>
      ((UnaryCompletion.machine z).step x.client (.runIoc i)).map fun c => { x with client := c }

/-- The exchanges as a machine. -/
def machine (z : Zlib) : Machine UnaryExchange ExchangeEvent := ⟨step z⟩

end UnaryExchange

end Rpcpio.Stream
