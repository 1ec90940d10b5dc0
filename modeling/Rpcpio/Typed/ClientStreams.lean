import Rpcpio.Stream.ClientStreamingExchange
import Rpcpio.Stream.SingleResponse
import Rpcpio.Typed.MessageStreams
import Rpcpio.Typed.UnaryCalls

/-!
# Typed client-streaming calls

`ClientWriter` at the caller's end, the adapter of `Server::RegisterClientStreaming` and
`ServerReader` at the handler's, around a client-streaming call. `FinishAndGetResponse` makes a
message of the response, or a failure of a status that lacks one.
-/

set_option autoImplicit false

namespace Rpcpio.Typed

open Rpcpio.Library Rpcpio.Protocol Rpcpio.Client Rpcpio.Server Rpcpio.Stream

/-- What a handler's result comes to at the caller's end. -/
def clientStreamingOutcome {β : Type} (c : Codec β) (maxResponseSize : Nat) :
    Option (StatusOr β) → Status × Option β
  | none => (handlerThrew, none)
  | some result =>
      match result.value with
      | none => (result.status, none)
      | some m =>
          match c.serializeToString m with
          | none => (responseNotSerialized, none)
          | some p =>
              if maxResponseSize < p.length then (responseTooLarge, none)
              else (Status.okStatus, some m)

section

variable {β : Type} {c : Codec β} {maxResponseSize : Nat}

/-- A status without a response is the result as it is. -/
theorem finishAndGetResponse_of_not_ok {w : RawClientWriterImpl} {s : Status}
    (hfinish : w.finish = some s) (hs : s.isOk = false) :
    finishAndGetResponse c.parseFromString w = some (s, none) := by
  simp [finishAndGetResponse, hfinish, hs]

/-- A response that was serialized is the result. -/
theorem finishAndGetResponse_of_response {w : RawClientWriterImpl} {p : Bytes} {m : β}
    (hfinish : w.finish = some Status.okStatus) (hresponse : singleResponse w = some p)
    (hparse : c.parseFromString p = some m) :
    finishAndGetResponse c.parseFromString w = some (Status.okStatus, some m) := by
  rw [singleResponse, Option.ite_none_right_eq_some, Option.some.injEq] at hresponse
  obtain ⟨hhas, rfl⟩ := hresponse
  have hok : Status.okStatus.isOk = true := rfl
  simp [finishAndGetResponse, hfinish, hok, hhas, hparse]

/-- A handler's result comes to a status without a response, or to the bytes of its message. -/
theorem clientStreamingOutcome_cases (c : Codec β) (maxResponseSize : Nat)
    (r : Option (StatusOr β)) :
    (∃ s, s.isOk = false ∧ outcome maxResponseSize (registerClientStreaming c r) = (s, none) ∧
        clientStreamingOutcome c maxResponseSize r = (s, none)) ∨
      ∃ result m p, r = some result ∧ result.value = some m ∧ c.serializeToString m = some p ∧
        p.length ≤ maxResponseSize ∧
        outcome maxResponseSize (registerClientStreaming c r) = (Status.okStatus, some p) ∧
        clientStreamingOutcome c maxResponseSize r = (Status.okStatus, some m) := by
  cases r with
  | none => exact Or.inl ⟨handlerThrew, rfl, rfl, rfl⟩
  | some result =>
      cases hv : result.value with
      | none =>
          have hbad : result.status.isOk = false := by rw [result.isOk_eq, hv]; rfl
          refine Or.inl ⟨result.status, hbad, ?_, ?_⟩
          · simp [outcome, registerClientStreaming, hv, handlerStatus, hbad]
          · simp [clientStreamingOutcome, hv]
      | some m =>
          cases hser : c.serializeToString m with
          | none =>
              have hbad : (handlerStatus (some responseNotSerialized)).isOk = false := rfl
              refine Or.inl ⟨responseNotSerialized, rfl, ?_, ?_⟩
              · simp [outcome, registerClientStreaming, hv, hser, hbad]
                rfl
              · simp [clientStreamingOutcome, hv, hser]
          | some p =>
              have hok : (handlerStatus (some Status.okStatus)).isOk = true := rfl
              by_cases hlarge : maxResponseSize < p.length
              · refine Or.inl ⟨responseTooLarge, rfl, ?_, ?_⟩
                · simp [outcome, registerClientStreaming, hv, hser, hok, hlarge]
                · simp [clientStreamingOutcome, hv, hser, hlarge]
              · refine Or.inr ⟨result, m, p, rfl, hv, hser, Nat.not_lt.1 hlarge, ?_, ?_⟩
                · simp [outcome, registerClientStreaming, hv, hser, hok, hlarge]
                  rfl
                · simp [clientStreamingOutcome, hv, hser, hlarge]

/-- **`FinishAndGetResponse` gives what the handler's result comes to.** -/
theorem finishAndGetResponse_outcome (hc : c.Lawful) {w : RawClientWriterImpl} {s : Status}
    {r : Option (StatusOr β)} (hfinish : w.finish = some s)
    (h : outcome maxResponseSize (registerClientStreaming c r) = (s, singleResponse w)) :
    finishAndGetResponse c.parseFromString w =
      some (clientStreamingOutcome c maxResponseSize r) := by
  rcases clientStreamingOutcome_cases c maxResponseSize r with
    ⟨s', hbad, hraw, htyped⟩ | ⟨_, m, p, _, _, hser, _, hraw, htyped⟩
  · obtain ⟨rfl, _⟩ := Prod.mk.inj (hraw.symm.trans h)
    rw [htyped, finishAndGetResponse_of_not_ok hfinish hbad]
  · obtain ⟨rfl, hresponse⟩ := Prod.mk.inj (hraw.symm.trans h)
    rw [htyped, finishAndGetResponse_of_response hfinish hresponse.symm
      (hc.parse_string m p hser)]

end

/-- What can happen to a typed call. -/
inductive TypedCollectEvent (α β : Type) where
  | write (m : α)
  | writesDone
  | handlerRead
  | addMetadata (trailing : Bool) (key value : Bytes)
  | handlerReturn (r : Option (StatusOr β))
  | transport (e : ClientStreamingExchangeEvent)

namespace TypedCollect

variable {α β : Type} (creq : Codec α) (cresp : Codec β)

/-- The events of the connection and of the executors act as they are. -/
def allowed (_ : ClientStreamingExchange) : TypedCollectEvent α β → Bool
  | .transport e => ClientStreamingExchange.isTransport e
  | _ => true

/-- The events of the call underneath. -/
def rawEvents : TypedCollectEvent α β → List ClientStreamingExchangeEvent
  | .write m => passedOn .write (clientWriterWrite creq m)
  | .writesDone => [.writesDone]
  | .handlerRead => [.handlerRead]
  | .addMetadata trailing key value => [.addMetadata trailing key value]
  | .handlerReturn r => [.handlerReturn (registerClientStreaming cresp r)]
  | .transport e => [e]

/-- The typed calls as a machine. -/
def machine (z : Zlib) : Machine ClientStreamingExchange (TypedCollectEvent α β) :=
  (ClientStreamingExchange.machine z).guarded allowed (rawEvents creq cresp)

/-- The messages that the caller passes to `Write`. -/
def sends : TypedCollectEvent α β → List α
  | .write m => [m]
  | _ => []

/-- The results of the handler. -/
def returns : TypedCollectEvent α β → List (Option (StatusOr β))
  | .handlerReturn r => [r]
  | _ => []

variable {creq cresp} {z : Zlib} {x x' : ClientStreamingExchange}

/-- The bytes of an event that is allowed are those of its messages. -/
theorem rawEvents_logs {e : TypedCollectEvent α β} (he : allowed x e = true) :
    (rawEvents creq cresp e).flatMap ClientStreamingExchange.writes =
        (sends e).filterMap creq.serializeToString ∧
      (rawEvents creq cresp e).flatMap ClientStreamingExchange.returns =
        (returns e).map (registerClientStreaming cresp) := by
  cases e with
  | write m =>
      refine ⟨flatMap_passedOn (fun _ => rfl) m, ?_⟩
      cases hw : clientWriterWrite creq m with
      | error s => simp [rawEvents, hw, passedOn, returns]
      | ok p => simp [rawEvents, hw, passedOn, returns, ClientStreamingExchange.returns]
  | writesDone | handlerRead | addMetadata | handlerReturn => exact ⟨rfl, rfl⟩
  | transport e =>
      cases e with
      | write | writesDone | handlerRead | addMetadata | handlerReturn => cases he
      | runStrand | runIoc | pollUp | deliverUp | halfClose | pollDown | head | deliverDown
      | trailer => exact ⟨rfl, rfl⟩

/-- **A run of typed calls is a run underneath**, with the bytes of the messages and the results. -/
theorem run_raw {es : List (TypedCollectEvent α β)}
    (h : (machine creq cresp z).run x es = some x') :
    (ClientStreamingExchange.machine z).run x (es.flatMap (rawEvents creq cresp)) = some x' ∧
      (es.flatMap (rawEvents creq cresp)).flatMap ClientStreamingExchange.writes =
        (es.flatMap sends).filterMap creq.serializeToString ∧
      (es.flatMap (rawEvents creq cresp)).flatMap ClientStreamingExchange.returns =
        (es.flatMap returns).map (registerClientStreaming cresp) := by
  refine ⟨Machine.guarded_run h, ?_, ?_⟩
  · rw [Machine.guarded_flatMap h fun _ _ he => (rawEvents_logs he).1, List.filterMap_flatMap]
  · rw [Machine.guarded_flatMap h fun _ _ he => (rawEvents_logs he).2, List.map_flatMap]

/-- What the ends of a call may rely on, in every state: the handler reads a prefix of the caller's
messages, and the end only once it was declared; `FinishAndGetResponse` gives the outcome of the
handler's result, and at rest it gives it if there is one. -/
structure TypedCollected (creq : Codec α) (cresp : Codec β) (z : Zlib) (maxResponseSize : Nat)
    (es : List (TypedCollectEvent α β)) (x : ClientStreamingExchange) : Prop where
  handlerReads : x.reads.map (serverReaderRead creq) <+:
    (serialized creq (es.flatMap sends)).map (fun m => .ofValue (some m)) ++
      if x.doneIssued then List.replicate x.reads.length (.ofValue none) else []
  learned : ∃ w, x.client.call.writer = some w ∧
    ∀ o, finishAndGetResponse cresp.parseFromString w = some o →
      (es.flatMap returns).getLast?.map (clientStreamingOutcome cresp maxResponseSize) = some o
  settled : ClientStreamingExchange.Quiescent z x → ∃ w, x.client.call.writer = some w ∧
    finishAndGetResponse cresp.parseFromString w =
      (es.flatMap returns).getLast?.map (clientStreamingOutcome cresp maxResponseSize)

/-- What `typed_client_streaming` says of every run of a call that the server has begun. -/
theorem collect_run (hreq : creq.Lawful) (hresp : cresp.Lawful) {ctx : Option ClientContext}
    {id : StreamId} {maxMessageSize maxMetadataSize maxResponseSize : Nat} {peerIdentity : Bytes}
    {req : Request} (hreg : ((ClientStreamingCallState.new maxMessageSize maxMetadataSize
      maxResponseSize peerIdentity).start z req).2.2 = true) (es : List (TypedCollectEvent α β))
    (x : ClientStreamingExchange)
    (hup : ∀ m ∈ es.flatMap sends, ∀ p, creq.serializeToString m = some p →
      p.length ≤ maxMessageSize)
    (hdown : ∀ result m p, some result ∈ es.flatMap returns → result.value = some m →
      cresp.serializeToString m = some p → p.length ≤ maxResponseSize →
        p.length ≤ maxReceiveMessageSize ctx)
    (h : (machine creq cresp z).run (.start z ctx id
      (.new maxMessageSize maxMetadataSize maxResponseSize peerIdentity) req) es = some x) :
    TypedCollected creq cresp z maxResponseSize es x := by
  obtain ⟨hraw, hwrites, hreturns⟩ := run_raw h
  have hresponses : ∀ r ∈ (es.flatMap returns).map (registerClientStreaming cresp),
      ∀ q ∈ (outcome maxResponseSize r).2,
        q.length ≤ maxReceiveMessageSize ctx ∧ q.length < 2 ^ 32 := by
    intro r hr q hq
    obtain ⟨o, ho, rfl⟩ := List.mem_map.1 hr
    rcases clientStreamingOutcome_cases cresp maxResponseSize o with
      ⟨s, _, hout, _⟩ | ⟨result, m, p, rfl, hv, hser, hle, hout, _⟩
    · rw [hout] at hq
      cases hq
    · rw [hout] at hq
      obtain rfl := Option.some.inj hq
      have hfits : p.length ≤ 2 ^ 31 - 1 := hresp.length_string m p hser
      exact ⟨hdown result m p ho hv hser hle, by omega⟩
  obtain ⟨hwritten, hreturned, hexchanged, hrests⟩ := ClientStreamingExchange.exchange_run hreg _ x
    (hwrites ▸ bytes_bounded hreq hup) (hreturns ▸ hresponses) hraw
  rw [hreturns, List.getLast?_map] at hreturned
  -- what the caller has learned is the outcome of a result of the handler
  have hfinish : ∀ w s, w.finish = some s →
      x.returned.map (outcome maxResponseSize) = some (s, singleResponse w) →
      finishAndGetResponse cresp.parseFromString w =
        (es.flatMap returns).getLast?.map (clientStreamingOutcome cresp maxResponseSize) := by
    intro w s hs hout
    rw [hreturned, Option.map_map] at hout
    obtain ⟨r, hr, hout⟩ := Option.map_eq_some_iff.1 hout
    rw [finishAndGetResponse_outcome hresp hs hout, hr, Option.map_some]
  refine ⟨handlerReads_of_bytes hreq _ ?_, ?_, fun hq => ?_⟩
  · rw [← hwrites, ← hwritten]
    exact hexchanged.handlerReads
  · obtain ⟨w, hw, _, hout⟩ := hexchanged.learned
    refine ⟨w, hw, fun o ho => ?_⟩
    obtain ⟨s, hs, _⟩ := Option.map_eq_some_iff.1 ho
    rw [← hfinish w s hs (hout s hs), ho]
  · obtain ⟨w, hw, hstatus, hresponse⟩ := hrests.caller hq
    refine ⟨w, hw, ?_⟩
    cases hr : x.returned with
    | none =>
        rw [hr] at hreturned hstatus
        rw [Option.map_eq_none_iff.1 hreturned.symm, finishAndGetResponse, hstatus]
        rfl
    | some r =>
        rw [hr] at hstatus hresponse
        exact hfinish w _ hstatus (by rw [hr, hresponse]; rfl)

/-- **A typed client-streaming call.** In every state that the call can reach, however the caller,
the handler and the connection interleave: the handler reads a prefix of the messages that were
written, in order, and then their end; and `FinishAndGetResponse` gives the outcome of the handler's
result, at the latest when the connection has come to a rest. -/
theorem typed_client_streaming (hreq : creq.Lawful) (hresp : cresp.Lawful) (z : Zlib)
    (ctx : Option ClientContext) (id : StreamId)
    (maxMessageSize maxMetadataSize maxResponseSize : Nat) (peerIdentity : Bytes) (req : Request)
    (hreg : ((ClientStreamingCallState.new maxMessageSize maxMetadataSize maxResponseSize
      peerIdentity).start z req).2.2 = true) {es : List (TypedCollectEvent α β)}
    {x : ClientStreamingExchange}
    (hup : ∀ m ∈ es.flatMap sends, ∀ p, creq.serializeToString m = some p →
      p.length ≤ maxMessageSize)
    (hdown : ∀ result m p, some result ∈ es.flatMap returns → result.value = some m →
      cresp.serializeToString m = some p → p.length ≤ maxResponseSize →
        p.length ≤ maxReceiveMessageSize ctx)
    (h : (machine creq cresp z).run (.start z ctx id
      (.new maxMessageSize maxMetadataSize maxResponseSize peerIdentity) req) es = some x) :
    TypedCollected creq cresp z maxResponseSize es x :=
  collect_run hreq hresp hreg es x hup hdown h

/-- The handler reads one of two flags, and answers. -/
def exampleCollect : List (TypedCollectEvent Bool Bool) :=
  [.write true, .transport .runStrand, .transport (.pollUp 9), .transport (.deliverUp 7),
    .handlerRead, .write false, .handlerReturn (some (.ofValue true)), .transport (.pollDown 9),
    .transport .head, .transport (.deliverDown 7), .transport (.pollDown 1), .transport .trailer,
    .writesDone, .transport .runStrand, .transport .runStrand, .transport .runStrand]

theorem typed_client_streaming_example :
    ∃ x, (machine flagCodec flagCodec Zlib.none).run (.start Zlib.none none 1 (.new 100 100 100 [])
        ⟨[], []⟩) exampleCollect = some x ∧
      x.client.call.writer.bind (finishAndGetResponse flagCodec.parseFromString) =
        some (Status.okStatus, some true) ∧
      TypedCollected flagCodec flagCodec Zlib.none 100 exampleCollect x := by
  have hrun : ((machine flagCodec flagCodec Zlib.none).run (.start Zlib.none none 1
      (.new 100 100 100 []) ⟨[], []⟩) exampleCollect).map
        (fun x => x.client.call.writer.bind (finishAndGetResponse flagCodec.parseFromString)) =
      some (some (Status.okStatus, some true)) := by decide +kernel
  obtain ⟨x, hx, hres⟩ := Option.map_eq_some_iff.1 hrun
  refine ⟨x, hx, hres, typed_client_streaming flagCodec_lawful flagCodec_lawful Zlib.none none 1
    100 100 100 [] ⟨[], []⟩ (by decide)
    (fun m _ p h => (length_flagCodec m p h).trans (by decide))
    (fun _ m p _ _ h _ => (length_flagCodec m p h).trans (by decide)) hx⟩

end TypedCollect

end Rpcpio.Typed
