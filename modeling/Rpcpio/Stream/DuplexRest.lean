import Rpcpio.Stream.DuplexRoundTrip

/-!
# A bidirectional call at rest

The events of the connection and the strand cannot go on for ever (`transport_step`). When none of
them is left everything has arrived that was written by then, whether or not the ends were declared
(`RequestSide.Sound.settled`, `ResponseSide.Sound.settled`): no end waits for the other unless the
other has nothing more to say, so that a dialogue in which each end answers the other never stops
half way.
-/

set_option autoImplicit false

namespace Rpcpio.Stream

open Rpcpio.Library Rpcpio.Protocol Rpcpio.Client Rpcpio.Server

namespace Duplex

/-- What has arrived at the two ends of a call at rest. -/
structure Settled (x : Duplex) : Prop where
  handler : Arrived x.server.call.readerImpl.queue x.written
    (if x.doneIssued then some .eos else none) x.server.results
  caller : ∃ r, x.client.call.reader = some r ∧
    Arrived r.msgQueue x.answers (x.returned.map streamEnd) x.results ∧ r.finish = x.returned

section Rest

variable {m maxResponseSize k : Nat} {z : Zlib} {x x' : Duplex}

theorem Quiescent.strand (hq : Quiescent z x) : x.client.strand = [] := by
  cases hs : x.client.strand with
  | nil => rfl
  | cons t rest =>
      have hnone := hq .runStrand rfl
      simp [step, StreamingCall.step, hs] at hnone

/-- At rest the request is idle. -/
theorem quiescent_request (hx : DuplexInvariant m maxResponseSize k x) (hq : Quiescent z x) :
    x.requestSide.Idle where
  strand := hq.strand
  generator hpoll := by
    have hnone := hq (.pollUp 1) rfl
    have hpoll' : x.up.canPoll 1 = true := hpoll
    show x.client.step (.poll 1) = none
    cases hw : x.client.call.writer with
    | none => simp [StreamingCall.step, hw]
    | some w => simpa [step, hpoll', hw, clientStep] using hnone
  bytes hne := by
    have hnone := hq (.deliverUp 1) rfl
    have hpos : 0 < x.up.inFlight.length := List.length_pos_iff.2 hne
    show x.halfClosed = true
    simpa [step, Nat.succ_le_iff.2 hpos, serverStep, BidiStreamingCall.step, hx.registered]
      using hnone
  halfClose heof hwire := by
    have hnone := hq .halfClose rfl
    have heof' : x.up.eof = true := heof
    have hwire' : x.up.inFlight = [] := hwire
    show x.halfClosed = true
    simpa [step, heof', hwire', serverStep, BidiStreamingCall.step, hx.registered] using hnone

/-- At rest the response is idle. -/
theorem quiescent_response (hx : DuplexInvariant m maxResponseSize k x) (hq : Quiescent z x) :
    x.responseSide.Idle where
  strand := hq.strand
  generator := by
    have hnone := hq (.pollDown 1) rfl
    cases hc : x.down.canPoll 1 with
    | false => exact hc
    | true =>
        simp [step, hc, serverStep, BidiStreamingCall.step, hx.registered, hx.opened] at hnone
  head head hhead := by
    have hnone := hq .head rfl
    have hfirst : (writtenHeads x.server.trace).head? = some head := hhead
    simpa [step, hfirst, clientStep, responseSide] using hnone
  bytes hne := by
    have hnone := hq (.deliverDown 1) rfl
    have hpos : 0 < x.down.inFlight.length := List.length_pos_iff.2 hne
    simpa [step, Nat.succ_le_iff.2 hpos, clientStep, responseSide] using hnone
  trailers heof hwire t ht := by
    have hnone := hq .trailer rfl
    have heof' : x.down.eof = true := heof
    have hwire' : x.down.inFlight = [] := hwire
    have ht' : (tracedTrailers x.server.trace).head? = some t := ht
    simpa [step, heof', hwire', ht', clientStep, responseSide] using hnone

/-- The events of the connection write nothing. -/
theorem Small.transport {e : DuplexEvent} (he : isTransport e = true)
    (hs : Small m maxResponseSize k x) (h : step z x e = some x') :
    Small m maxResponseSize k x' := by
  obtain ⟨hw, ha, _⟩ := logs_step h
  have hnone : writes e = [] ∧ replies e = [] := by
    cases e with
    | write | writesDone | handlerRead | answer | addMetadata | handlerReturn | read => cases he
    | runStrand | pollUp | deliverUp | halfClose | pollDown | head | deliverDown | trailer =>
        exact ⟨rfl, rfl⟩
  rw [hnone.1, List.append_nil] at hw
  rw [hnone.2, List.append_nil] at ha
  refine ⟨fun p hp => hs.written p ?_, fun p hp => hs.answers p ?_⟩
  · rw [show x'.requestSide.written = _ from hw] at hp
    exact hp
  · rw [show x'.responseSide.answers = _ from ha] at hp
    exact hp

end Rest

/-- What a call may rely on wherever it stands: the events of the connection and the strand come to
a rest, and at a rest everything has arrived. -/
structure Rests (z : Zlib) (x : Duplex) : Prop where
  bounded : ∃ n, ∀ es y, (∀ e ∈ es, isTransport e = true) → (machine z).run x es = some y →
    es.length ≤ n
  rests : ∃ es y, (∀ e ∈ es, isTransport e = true) ∧ (machine z).run x es = some y ∧
    Quiescent z y
  settled : Quiescent z x → Settled x

theorem DuplexInvariant.rests {m maxResponseSize k : Nat} {z : Zlib} {x : Duplex}
    (hx : DuplexInvariant m maxResponseSize k x) (hs : Small m maxResponseSize k x) :
    Rests z x := by
  have hstep : ∀ a e b, DuplexInvariant m maxResponseSize k a ∧ Small m maxResponseSize k a →
      isTransport e = true → (machine z).step a e = some b →
      DuplexInvariant m maxResponseSize k b ∧ Small m maxResponseSize k b :=
    fun a e b ha he h => ⟨(transport_step he ha.1 ha.2 h).1, ha.2.transport he h⟩
  have hdec : ∀ a e b, DuplexInvariant m maxResponseSize k a ∧ Small m maxResponseSize k a →
      isTransport e = true → (machine z).step a e = some b → b.remaining < a.remaining :=
    fun a e b ha he h => (transport_step he ha.1 ha.2 h).2
  exact ⟨⟨x.remaining, fun es y hes hrun =>
      Machine.run_length_le_of hstep hdec es x y ⟨hx, hs⟩ hes hrun⟩,
    Machine.exists_quiescent_of hstep hdec x ⟨hx, hs⟩,
    fun hq => ⟨hx.request.settled hs.written (quiescent_request hx hq),
      hx.response.settled hs.answers hx.head (quiescent_response hx hq)⟩⟩

/-- **A dialogue never stops half way.** In every state a bidirectional call can reach, with the
ends declared or not: the connection and the strand come to a rest, and at a rest each end was
given, or finds in its queue, everything the other has written, the declared ends and the final
status. -/
theorem duplex_rests (z : Zlib) (ctx : Option ClientContext) (id : StreamId)
    (maxMessageSize maxMetadataSize maxResponseSize : Nat) (peerIdentity : Bytes) (req : Request)
    (hreg : ((BidiStreamingCallState.new maxMessageSize maxMetadataSize maxResponseSize
      peerIdentity).start z req).2.2 = true) {es : List DuplexEvent} {x : Duplex}
    (hup : ∀ p ∈ es.flatMap writes, p.length ≤ maxMessageSize ∧ p.length < 2 ^ 32)
    (hdown : ∀ p ∈ es.flatMap replies, p.length ≤ maxResponseSize ∧
      p.length ≤ maxReceiveMessageSize ctx ∧ p.length < 2 ^ 32)
    (h : (machine z).run (start z ctx id
      (.new maxMessageSize maxMetadataSize maxResponseSize peerIdentity) req) es = some x) :
    Rests z x := by
  obtain ⟨hx, hsmall⟩ := duplexInvariant_reached hreg hup hdown h
  exact hx.rests hsmall

/-- A message is on its way, and the caller waits for the answer. -/
theorem duplex_rests_example :
    ∃ x, (machine Zlib.none).run (start Zlib.none none 1 (.new 100 100 100 []) ⟨[], []⟩)
        [.write [7], .runStrand, .pollUp 9, .deliverUp 2, .read] = some x ∧
      Rests Zlib.none x := by
  have hrun : ((machine Zlib.none).run (start Zlib.none none 1 (.new 100 100 100 []) ⟨[], []⟩)
      [.write [7], .runStrand, .pollUp 9, .deliverUp 2, .read]).isSome = true := by decide +kernel
  obtain ⟨x, hx⟩ := Option.isSome_iff_exists.1 hrun
  exact ⟨x, hx, duplex_rests Zlib.none none 1 100 100 100 [] ⟨[], []⟩ (by decide) (by decide)
    (by decide) hx⟩

end Duplex

end Rpcpio.Stream
