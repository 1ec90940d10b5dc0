import Rpcpio.Stream.ServerStreamingExchange
import Rpcpio.Typed.MessageStreams
import Rpcpio.Typed.UnaryCalls

/-!
# Typed server-streaming calls

`Channel::ServerStreamingCall` and `ClientReader` at the caller's end, the adapter of
`Server::RegisterServerStreaming` and `ServerWriter` at the handler's, around a server-streaming
call. A request that does not parse is answered by the adapter, without the handler. A message that
is not serialized is sent as no bytes at all, which may well parse.
-/

set_option autoImplicit false

namespace Rpcpio.Typed

open Rpcpio.Library Rpcpio.Protocol Rpcpio.Client Rpcpio.Server Rpcpio.Stream

/-- What can happen to a typed call: the handler and the caller act, the adapter returns without a
handler, or the connection and the strand go on. -/
inductive TypedWatchEvent (β : Type) where
  | answer (m : β)
  | addMetadata (trailing : Bool) (key value : Bytes)
  | handlerReturn (status : Option Status)
  | reject
  | read
  | transport (e : ServerStreamingExchangeEvent)

namespace TypedWatch

variable {α β : Type} (creq : Codec α) (cresp : Codec β)

/-- What the adapter has made of the request, while the raw handler runs. -/
def adapter (x : ServerStreamingExchange) : Option (Except Status α) :=
  x.server.handlers.head?.map (registerServerStreaming creq)

/-- The handler acts while it runs. -/
def allowed (x : ServerStreamingExchange) : TypedWatchEvent β → Bool
  | .answer _ | .addMetadata _ _ _ | .handlerReturn _ =>
      (adapter creq x).any fun r => r.toOption.isSome
  | .reject => (adapter creq x).any fun r => r.toOption.isNone
  | .read => true
  | .transport e => ServerStreamingExchange.isTransport e

/-- The events of the call underneath. -/
def rawEvents : TypedWatchEvent β → List ServerStreamingExchangeEvent
  | .answer m => passedOn .answer (serverWriterWrite cresp m)
  | .addMetadata trailing key value => [.addMetadata trailing key value]
  | .handlerReturn status => [.handlerReturn status]
  | .reject => [.handlerReturn (some requestNotParsed)]
  | .read => [.read]
  | .transport e => [e]

/-- The typed calls as a machine. -/
def machine (z : Zlib) : Machine ServerStreamingExchange (TypedWatchEvent β) :=
  (ServerStreamingExchange.machine z).guarded (allowed creq) (rawEvents cresp)

/-- The messages that the handler passes to `Write`. -/
def answers : TypedWatchEvent β → List β
  | .answer m => [m]
  | _ => []

/-- The status that ends the call. -/
def returns : TypedWatchEvent β → List Status
  | .handlerReturn status => [handlerStatus status]
  | .reject => [requestNotParsed]
  | _ => []

/-- What the handler does, as opposed to the adapter. -/
def isHandler : TypedWatchEvent β → Bool
  | .answer _ | .addMetadata _ _ _ | .handlerReturn _ => true
  | _ => false

variable {creq cresp} {z : Zlib} {x x' : ServerStreamingExchange}

/-- The bytes and the status of an event that is allowed. -/
theorem rawEvents_logs {e : TypedWatchEvent β} (he : allowed creq x e = true) :
    (rawEvents cresp e).flatMap ServerStreamingExchange.replies =
        (answers e).filterMap cresp.serializeToString ∧
      (rawEvents cresp e).flatMap ServerStreamingExchange.returns = returns e := by
  cases e with
  | answer m =>
      refine ⟨flatMap_passedOn (fun _ => rfl) m, ?_⟩
      cases hw : serverWriterWrite cresp m with
      | error s => simp [rawEvents, hw, passedOn, returns]
      | ok p => simp [rawEvents, hw, passedOn, returns, ServerStreamingExchange.returns]
  | addMetadata | handlerReturn | reject | read => exact ⟨rfl, rfl⟩
  | transport e =>
      cases e with
      | answer | addMetadata | handlerReturn | read => cases he
      | request | requestEnd | pollDown | head | deliverDown | trailer | runStrand =>
          exact ⟨rfl, rfl⟩

/-- **A run of typed calls is a run underneath**, with the bytes of the messages and the status. -/
theorem run_raw {es : List (TypedWatchEvent β)} (h : (machine creq cresp z).run x es = some x') :
    (ServerStreamingExchange.machine z).run x (es.flatMap (rawEvents cresp)) = some x' ∧
      (es.flatMap (rawEvents cresp)).flatMap ServerStreamingExchange.replies =
        (es.flatMap answers).filterMap cresp.serializeToString ∧
      (es.flatMap (rawEvents cresp)).flatMap ServerStreamingExchange.returns =
        es.flatMap returns := by
  refine ⟨Machine.guarded_run h, ?_, ?_⟩
  · rw [Machine.guarded_flatMap h fun _ _ he => (rawEvents_logs he).1, List.filterMap_flatMap]
  · exact Machine.guarded_flatMap h fun _ _ he => (rawEvents_logs he).2

/-- What the ends of a call may rely on. The adapter is invoked at most once, with what the caller's
message comes to; the handler acts only if that is a message, and the adapter answers only if it is
not; the caller reads a prefix of the handler's messages, and then the end. -/
structure TypedWatched (creq : Codec α) (cresp : Codec β) (a : α) (es : List (TypedWatchEvent β))
    (x : ServerStreamingExchange) : Prop where
  invoked : x.invocations.map (registerServerStreaming creq) <+: [requested creq a]
  handled : ∀ e ∈ es, isHandler e = true → ∃ m, requested creq a = .ok m
  rejected : .reject ∈ es → requested creq a = .error requestNotParsed
  returned : x.returned = (es.flatMap returns).getLast?
  callerReads : x.results.map (clientReaderRead cresp) <+:
    (serialized cresp (es.flatMap answers)).map (fun m => .ofValue (some m)) ++
      (x.returned.elim [] fun s => List.replicate x.results.length (typedEnd s))
  finish : ∃ r, x.client.call.reader = some r ∧ ∀ t, r.finish = some t → x.returned = some t

/-- While the raw handler runs, the adapter has made of the request what the message comes to. -/
theorem adapter_eq {m maxResponseSize k : Nat} {a : α} {r : Except Status α} (hreq : creq.Lawful)
    (hx : x.ExchangeInvariant m maxResponseSize k (serverStreamingRequest creq a))
    (h : adapter creq x = some r) : r = requested creq a := by
  obtain ⟨bytes, hbytes, rfl⟩ := Option.map_eq_some_iff.1 h
  have hne : x.server.handlers ≠ [] := by
    intro hnil
    rw [hnil] at hbytes
    cases hbytes
  rw [(hx.running hne).2.1, List.head?_cons, Option.some.injEq] at hbytes
  rw [← hbytes, (registerServerStreaming_request hreq a).2]

/-- What `typed_server_streaming` says of every run of a call that the server has begun. -/
theorem watch_run (hreq : creq.Lawful) (hresp : cresp.Lawful) {ctx : Option ClientContext}
    {id : StreamId} {maxRequestSize maxMetadataSize maxResponseSize : Nat} {peerIdentity : Bytes}
    {req : Request} {a : α} (ha : (serverStreamingRequest creq a).length ≤ maxRequestSize)
    (hreg : ((ServerStreamingCallState.new maxRequestSize maxMetadataSize maxResponseSize
      peerIdentity).start z req).2.2 = true) (es : List (TypedWatchEvent β))
    (x : ServerStreamingExchange)
    (hdown : ∀ m ∈ es.flatMap answers, ∀ p, cresp.serializeToString m = some p →
      p.length ≤ maxResponseSize ∧ p.length ≤ maxReceiveMessageSize ctx)
    (h : (machine creq cresp z).run (.start z ctx id
      (.new maxRequestSize maxMetadataSize maxResponseSize peerIdentity) req
      (serverStreamingRequest creq a)) es = some x) :
    TypedWatched creq cresp a es x ∧
      ServerStreamingExchange.Rests z (serverStreamingRequest creq a) x := by
  have hfits : (serverStreamingRequest creq a).length ≤ 2 ^ 31 - 1 :=
    (registerServerStreaming_request hreq a).1
  have hr : (serverStreamingRequest creq a).length ≤ maxRequestSize ∧
      (serverStreamingRequest creq a).length < 2 ^ 32 := ⟨ha, by omega⟩
  -- the limits hold of every run of messages that keep theirs
  have hlimits : ∀ fs : List (TypedWatchEvent β), (∀ e ∈ fs, e ∈ es) →
      ∀ p ∈ (fs.flatMap answers).filterMap cresp.serializeToString, p.length ≤ maxResponseSize ∧
        p.length ≤ maxReceiveMessageSize ctx ∧ p.length < 2 ^ 32 := by
    intro fs hfs
    have hmem : ∀ m ∈ fs.flatMap answers, m ∈ es.flatMap answers := by
      intro m hm
      obtain ⟨e, he, hm⟩ := List.mem_flatMap.1 hm
      exact List.mem_flatMap.2 ⟨e, hfs e he, hm⟩
    exact bytes_bounded_two hresp fun m hm => hdown m (hmem m hm)
  -- so an event that is allowed sees the adapter's result for the message
  have hadapter : ∀ e ∈ es, ∃ t, allowed creq t e = true ∧
      ∀ r, adapter creq t = some r → r = requested creq a := by
    intro e he
    obtain ⟨pre, post, t, hes, hpre, hallowed⟩ := Machine.guarded_allowed h he
    obtain ⟨hraw, hreplies, _⟩ := run_raw hpre
    have hsub : ∀ e ∈ pre, e ∈ es := fun e he => hes ▸ List.mem_append_left _ he
    exact ⟨t, hallowed, fun r => adapter_eq hreq (ServerStreamingExchange.invariant_reached hr hreg
      (fun p hp => hlimits pre hsub p (hreplies ▸ hp)) hraw).1⟩
  obtain ⟨hraw, hreplies, hreturns⟩ := run_raw h
  obtain ⟨hanswers, hreturned, hexchanged, hrests⟩ := ServerStreamingExchange.exchange_run hr hreg _ x
    (fun p hp => hlimits es (fun _ he => he) p (hreplies ▸ hp)) hraw
  refine ⟨⟨?_, fun e he hhandler => ?_, fun hreject => ?_, hreturns ▸ hreturned,
    reads_of_bytes hresp _ _ ?_, hexchanged.finish⟩, hrests⟩
  · have hmap := hexchanged.invocations.map (registerServerStreaming creq)
    rwa [List.map_singleton, (registerServerStreaming_request hreq a).2] at hmap
  · obtain ⟨t, hallowed, hresult⟩ := hadapter e he
    have hany : (adapter creq t).any (fun r => r.toOption.isSome) = true := by
      cases e with
      | answer | addMetadata | handlerReturn => exact hallowed
      | reject | read | transport => cases hhandler
    obtain ⟨r, hr, hsome⟩ := (Option.any_eq_true _ _).1 hany
    rw [← hresult r hr]
    cases r with
    | error s => cases hsome
    | ok m => exact ⟨m, rfl⟩
  · obtain ⟨t, hallowed, hresult⟩ := hadapter .reject hreject
    obtain ⟨r, hr, hnone⟩ := (Option.any_eq_true _ _).1 hallowed
    cases r with
    | ok m => cases hnone
    | error s =>
        rw [← hresult _ hr, requested_error (hresult _ hr).symm]
  · rw [← hreplies, ← hanswers]
    exact hexchanged.callerReads

/-- **A typed server-streaming call.** In every state that the call can reach, however the handler,
the caller and the connection interleave: the adapter gets the message that was passed, or, if
protobuf did not serialize it, what no bytes parse to; the handler acts exactly on a message, and
the caller reads a prefix of what the handler has written, in order, and then its status. The
connection comes to a rest, at which all of it has arrived. -/
theorem typed_server_streaming (hreq : creq.Lawful) (hresp : cresp.Lawful) (z : Zlib)
    (ctx : Option ClientContext) (id : StreamId)
    (maxRequestSize maxMetadataSize maxResponseSize : Nat) (peerIdentity : Bytes) (req : Request)
    {a : α} (ha : (serverStreamingRequest creq a).length ≤ maxRequestSize)
    (hreg : ((ServerStreamingCallState.new maxRequestSize maxMetadataSize maxResponseSize
      peerIdentity).start z req).2.2 = true) {es : List (TypedWatchEvent β)}
    {x : ServerStreamingExchange}
    (hdown : ∀ m ∈ es.flatMap answers, ∀ p, cresp.serializeToString m = some p →
      p.length ≤ maxResponseSize ∧ p.length ≤ maxReceiveMessageSize ctx)
    (h : (machine creq cresp z).run (.start z ctx id
      (.new maxRequestSize maxMetadataSize maxResponseSize peerIdentity) req
      (serverStreamingRequest creq a)) es = some x) :
    TypedWatched creq cresp a es x ∧
      ServerStreamingExchange.Rests z (serverStreamingRequest creq a) x :=
  watch_run hreq hresp ha hreg es x hdown h

/-- A flag that protobuf does not serialize if it is set. -/
def clearCodec : Codec Bool where
  byteSizeLong _ := 0
  serializeToArray b n := if !b && n = 0 then some [] else none
  serializeToString b := if b then none else some []
  parseFromArray bytes n := if n = 0 ∧ bytes = [] then some false else none
  parseFromString bytes := if bytes = [] then some false else none

theorem clearCodec_lawful : clearCodec.Lawful where
  length_array m n b h := by
    simp only [clearCodec, Option.ite_none_right_eq_some, Bool.and_eq_true, decide_eq_true_eq] at h
    obtain ⟨⟨_, rfl⟩, h⟩ := h
    cases h
    rfl
  parse_array m b h _ := by
    cases m <;> cases h
    rfl
  length_string m b h := by
    cases m <;> cases h
    decide
  parse_string m b h := by
    cases m <;> cases h
    rfl
  parse_stringArray m b h := by
    cases m <;> cases h
    rfl

/-- The request is empty, the handler answers once and returns. -/
def exampleClear : List (TypedWatchEvent Bool) :=
  [.transport (.request 5), .transport .requestEnd, .transport .head, .answer true,
    .handlerReturn (some Status.okStatus), .transport (.pollDown 9), .transport (.pollDown 1),
    .transport (.deliverDown 7), .transport .trailer, .transport .runStrand, .read, .read]

/-- The caller passes a flag that is set, and the handler is called with one that is not. -/
theorem typed_server_streaming_example :
    ∃ x, (machine clearCodec flagCodec Zlib.none).run (.start Zlib.none none 1
        (.new 100 100 100 []) ⟨[], []⟩ (serverStreamingRequest clearCodec true)) exampleClear =
          some x ∧
      x.invocations.map (fun r => (registerServerStreaming clearCodec r).toOption) =
        [some false] ∧
      TypedWatched clearCodec flagCodec true exampleClear x := by
  have hrun : ((machine clearCodec flagCodec Zlib.none).run (.start Zlib.none none 1
      (.new 100 100 100 []) ⟨[], []⟩ (serverStreamingRequest clearCodec true)) exampleClear).map
        (fun x => x.invocations.map fun r => (registerServerStreaming clearCodec r).toOption) =
      some [some false] := by decide +kernel
  obtain ⟨x, hx, hres⟩ := Option.map_eq_some_iff.1 hrun
  exact ⟨x, hx, hres, (typed_server_streaming clearCodec_lawful flagCodec_lawful Zlib.none none 1
    100 100 100 [] ⟨[], []⟩ (by decide) (by decide)
    (fun m _ p h => ⟨(length_flagCodec m p h).trans (by decide),
      (length_flagCodec m p h).trans (by decide)⟩) hx).1⟩

end TypedWatch

end Rpcpio.Typed
