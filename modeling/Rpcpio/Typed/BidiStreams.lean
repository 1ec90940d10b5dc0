import Rpcpio.Stream.DuplexRest
import Rpcpio.Typed.MessageStreams
import Rpcpio.Typed.UnaryCalls

/-!
# Typed bidirectional calls

`BidiStream` at the caller's end, `ServerReader` and `ServerWriter` at the handler's, around a
bidirectional call. A write of a message that is not serialized sends nothing; any other one is a
write of its bytes, so that a run of typed calls is a run of the call underneath.
-/

set_option autoImplicit false

namespace Rpcpio.Typed

open Rpcpio.Library Rpcpio.Protocol Rpcpio.Client Rpcpio.Server Rpcpio.Stream

/-- `BidiStream::Write` of the caller, `ServerWriter::Write` of the handler, and what is not typed.
-/
inductive TypedDuplexEvent (α β : Type) where
  | write (m : α)
  | answer (m : β)
  | raw (e : DuplexEvent)

namespace TypedDuplex

variable {α β : Type} (creq : Codec α) (cresp : Codec β)

/-- The raw events are those that write nothing. -/
def allowed (_ : Duplex) : TypedDuplexEvent α β → Bool
  | .raw e => (Duplex.writes e).isEmpty && (Duplex.replies e).isEmpty
  | _ => true

/-- The events of the call underneath. -/
def rawEvents : TypedDuplexEvent α β → List DuplexEvent
  | .write m => passedOn .write (bidiStreamWrite creq m)
  | .answer m => passedOn .answer (serverWriterWrite cresp m)
  | .raw e => [e]

/-- The typed calls as a machine. -/
def machine (z : Zlib) : Machine Duplex (TypedDuplexEvent α β) :=
  (Duplex.machine z).guarded allowed (rawEvents creq cresp)

/-- The messages that the caller passes to `Write`. -/
def sends : TypedDuplexEvent α β → List α
  | .write m => [m]
  | _ => []

/-- The messages that the handler passes to `Write`. -/
def answers : TypedDuplexEvent α β → List β
  | .answer m => [m]
  | _ => []

variable {creq cresp} {z : Zlib} {x x' : Duplex}

/-- The bytes of an event that is allowed are those of its messages. -/
theorem rawEvents_logs {e : TypedDuplexEvent α β} (he : allowed x e = true) :
    (rawEvents creq cresp e).flatMap Duplex.writes =
        (sends e).filterMap creq.serializeToString ∧
      (rawEvents creq cresp e).flatMap Duplex.replies =
        (answers e).filterMap cresp.serializeToString := by
  cases e with
  | write m => exact ⟨flatMap_passedOn (fun _ => rfl) m, flatMap_passedOn_nil (fun _ => rfl) _⟩
  | answer m => exact ⟨flatMap_passedOn_nil (fun _ => rfl) _, flatMap_passedOn (fun _ => rfl) m⟩
  | raw e =>
      simp only [allowed, Bool.and_eq_true, List.isEmpty_iff] at he
      simp [rawEvents, sends, answers, he.1, he.2]

/-- **A run of typed calls is a run underneath**, with the bytes of the messages. -/
theorem run_raw {es : List (TypedDuplexEvent α β)} (h : (machine creq cresp z).run x es = some x') :
    (Duplex.machine z).run x (es.flatMap (rawEvents creq cresp)) = some x' ∧
      (es.flatMap (rawEvents creq cresp)).flatMap Duplex.writes =
        (es.flatMap sends).filterMap creq.serializeToString ∧
      (es.flatMap (rawEvents creq cresp)).flatMap Duplex.replies =
        (es.flatMap answers).filterMap cresp.serializeToString := by
  refine ⟨Machine.guarded_run h, ?_, ?_⟩
  · rw [Machine.guarded_flatMap h fun _ _ he => (rawEvents_logs he).1, List.filterMap_flatMap]
  · rw [Machine.guarded_flatMap h fun _ _ he => (rawEvents_logs he).2, List.filterMap_flatMap]

/-- The reads of the two ends, as messages: each reads a prefix of what the other has sent, and then
the end; and the caller's `Finish` gives the status that the handler has returned. -/
structure TypedExchanged (creq : Codec α) (cresp : Codec β) (es : List (TypedDuplexEvent α β))
    (x : Duplex) : Prop where
  handlerReads : x.server.results.map (serverReaderRead creq) <+:
    (serialized creq (es.flatMap sends)).map (fun m => .ofValue (some m)) ++
      if x.doneIssued then List.replicate x.server.results.length (.ofValue none) else []
  callerReads : x.results.map (bidiStreamRead cresp) <+:
    (serialized cresp (es.flatMap answers)).map (fun m => .ofValue (some m)) ++
      (x.returned.elim [] fun s => List.replicate x.results.length (typedEnd s))
  finish : ∃ r, x.client.call.reader = some r ∧ ∀ t, r.finish = some t → x.returned = some t

/-- What `typed_dialogue` says of every run of a call that the server has begun. -/
theorem dialogue_run (hreq : creq.Lawful) (hresp : cresp.Lawful) {ctx : Option ClientContext}
    {id : StreamId} {maxMessageSize maxMetadataSize maxResponseSize : Nat} {peerIdentity : Bytes}
    {req : Request} (hreg : ((BidiStreamingCallState.new maxMessageSize maxMetadataSize
      maxResponseSize peerIdentity).start z req).2.2 = true) (es : List (TypedDuplexEvent α β))
    (x : Duplex)
    (hup : ∀ m ∈ es.flatMap sends, ∀ p, creq.serializeToString m = some p →
      p.length ≤ maxMessageSize)
    (hdown : ∀ m ∈ es.flatMap answers, ∀ p, cresp.serializeToString m = some p →
      p.length ≤ maxResponseSize ∧ p.length ≤ maxReceiveMessageSize ctx)
    (h : (machine creq cresp z).run (.start z ctx id
      (.new maxMessageSize maxMetadataSize maxResponseSize peerIdentity) req) es = some x) :
    TypedExchanged creq cresp es x := by
  obtain ⟨hraw, hwrites, hreplies⟩ := run_raw h
  obtain ⟨hw, ha, _⟩ := Duplex.logs_run hraw
  have hwritten : x.written = (es.flatMap sends).filterMap creq.serializeToString := by
    simpa [hwrites, Duplex.start] using hw
  have hanswers : x.answers = (es.flatMap answers).filterMap cresp.serializeToString := by
    simpa [hreplies, Duplex.start] using ha
  obtain ⟨hx, hs⟩ := Duplex.duplexInvariant_reached hreg (hwrites ▸ bytes_bounded hreq hup)
    (hreplies ▸ bytes_bounded_two hresp hdown) hraw
  have hexchanged := hx.exchanged hs
  refine ⟨handlerReads_of_bytes hreq _ ?_, reads_of_bytes hresp _ _ ?_, hexchanged.finish⟩
  · rw [← hwritten]
    exact hexchanged.handlerReads
  · rw [← hanswers]
    exact hexchanged.callerReads

/-- **A typed dialogue.** In every state that a bidirectional call of messages can reach, however
the two ends interleave their calls with the connection: no read fails to parse, each end reads a
prefix of the messages that the other has sent, in order, and then the end. -/
theorem typed_dialogue (hreq : creq.Lawful) (hresp : cresp.Lawful) (z : Zlib)
    (ctx : Option ClientContext) (id : StreamId)
    (maxMessageSize maxMetadataSize maxResponseSize : Nat) (peerIdentity : Bytes) (req : Request)
    (hreg : ((BidiStreamingCallState.new maxMessageSize maxMetadataSize maxResponseSize
      peerIdentity).start z req).2.2 = true) {es : List (TypedDuplexEvent α β)} {x : Duplex}
    (hup : ∀ m ∈ es.flatMap sends, ∀ p, creq.serializeToString m = some p →
      p.length ≤ maxMessageSize)
    (hdown : ∀ m ∈ es.flatMap answers, ∀ p, cresp.serializeToString m = some p →
      p.length ≤ maxResponseSize ∧ p.length ≤ maxReceiveMessageSize ctx)
    (h : (machine creq cresp z).run (.start z ctx id
      (.new maxMessageSize maxMetadataSize maxResponseSize peerIdentity) req) es = some x) :
    TypedExchanged creq cresp es x :=
  dialogue_run hreq hresp hreg es x hup hdown h

/-- The caller sends a flag, and the handler answers with two. -/
def exampleDialogue : List (TypedDuplexEvent Bool Bool) :=
  [.write true, .raw .runStrand, .raw (.pollUp 9), .raw (.deliverUp 7), .raw .handlerRead,
    .answer false, .answer true, .raw .head, .raw (.pollDown 9), .raw (.deliverDown 5),
    .raw .runStrand, .raw .read]

theorem typed_dialogue_example :
    ∃ x, (machine flagCodec flagCodec Zlib.none).run (.start Zlib.none none 1 (.new 100 100 100 [])
        ⟨[], []⟩) exampleDialogue = some x ∧
      x.results.map (fun r => (bidiStreamRead flagCodec r).value) = [some (some false)] ∧
      TypedExchanged flagCodec flagCodec exampleDialogue x := by
  have hrun : ((machine flagCodec flagCodec Zlib.none).run (.start Zlib.none none 1
      (.new 100 100 100 []) ⟨[], []⟩) exampleDialogue).map
        (fun x => x.results.map fun r => (bidiStreamRead flagCodec r).value) =
      some [some (some false)] := by decide +kernel
  obtain ⟨x, hx, hres⟩ := Option.map_eq_some_iff.1 hrun
  refine ⟨x, hx, hres, typed_dialogue flagCodec_lawful flagCodec_lawful Zlib.none none 1 100 100 100
    [] ⟨[], []⟩ (by decide) (fun m _ p h => (length_flagCodec m p h).trans (by decide))
    (fun m _ p h => ⟨(length_flagCodec m p h).trans (by decide),
      (length_flagCodec m p h).trans (by decide)⟩) hx⟩

end TypedDuplex

end Rpcpio.Typed
