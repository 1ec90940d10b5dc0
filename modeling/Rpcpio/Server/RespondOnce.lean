import Rpcpio.Server.CallState
import Rpcpio.Server.ClientStreamingCallState

/-!
# Unary and client-streaming calls respond once

Both call states are responders, so in every run they write at most one response and none after
`OnClose`; a handler that returns on an open stream leaves one written.
-/

set_option autoImplicit false

namespace Rpcpio.Server

open Rpcpio.Library Rpcpio.Protocol

theorem ServerCall.responseInvariant_run {z : Zlib} {c : ServerCallState}
    {es : List ServerCallEvent} {u : ServerCall} (hr : c.responded = false)
    (hc : c.closed = false) (hrun : (ServerCall.machine z).run (ServerCall.new c) es = some u) :
    ResponseInvariant u.responder := by
  have hnew : ResponseInvariant (ServerCall.new c).responder := by
    rw [ServerCall.responder, ServerCall.new, hr, hc]
    exact responseInvariant_initial
  refine Machine.run_invariant (M := ServerCall.machine z)
    (I := fun u => ResponseInvariant u.responder) (fun _ _ _ hs hstep => ?_) es _ u hnew hrun
  obtain ⟨m, hm⟩ := ServerCall.step_responder hstep
  rw [hm]
  exact hs.move m

theorem ClientStreamingCall.responseInvariant_run {z : Zlib} {c : ClientStreamingCallState}
    {es : List ClientStreamingEvent} {u : ClientStreamingCall} (hr : c.responded = false)
    (hc : c.closed = false)
    (hrun : (ClientStreamingCall.machine z).run (ClientStreamingCall.new c) es = some u) :
    ResponseInvariant u.responder := by
  have hnew : ResponseInvariant (ClientStreamingCall.new c).responder := by
    rw [ClientStreamingCall.responder, ClientStreamingCall.new, hr, hc]
    exact responseInvariant_initial
  refine Machine.run_invariant (M := ClientStreamingCall.machine z)
    (I := fun u => ResponseInvariant u.responder) (fun _ _ _ hs hstep => ?_) es _ u hnew hrun
  obtain ⟨m, hm⟩ := ClientStreamingCall.step_responder hstep
  rw [hm]
  exact hs.move m

/-- What is promised of the response: at most one, `write_head` and `end` together, none after
`OnClose`, and exactly one if a handler returned before the stream was closed. -/
structure Responds (answered : Bool) (tr : List ResponseEffect) : Prop where
  once : RespondsOnce tr
  ordered : SendsBeforeClose tr
  answered : answered = true → ∃ r : Reply, sends tr = r.effects

theorem ResponseInvariant.responds {g : Responder} (hg : ResponseInvariant g) :
    Responds g.answered g.trace := by
  refine ⟨hg.once, hg.ordered, fun ha => ?_⟩
  rcases hg.once with h | h
  · exact absurd h (hg.answered ha)
  · exact h

/-- **Server unary and client-streaming calls respond once and never after close**, in every order
of their events. -/
theorem responds_once (z : Zlib) (maxRequestSize maxMetadataSize maxResponseSize : Nat)
    (peerIdentity : Bytes) :
    (∀ (es : List ServerCallEvent) (u : ServerCall),
      (ServerCall.machine z).run (ServerCall.new
        (ServerCallState.new maxRequestSize maxMetadataSize maxResponseSize peerIdentity)) es =
          some u → Responds u.answered u.trace) ∧
      ∀ (es : List ClientStreamingEvent) (u : ClientStreamingCall),
        (ClientStreamingCall.machine z).run (ClientStreamingCall.new
          (ClientStreamingCallState.new maxRequestSize maxMetadataSize maxResponseSize
            peerIdentity)) es = some u → Responds u.answered u.trace :=
  ⟨fun _ _ hrun => (ServerCall.responseInvariant_run rfl rfl hrun).responds,
    fun _ _ hrun => (ClientStreamingCall.responseInvariant_run rfl rfl hrun).responds⟩

/-- A request with a timeout. -/
def timeoutRequest : Request := ⟨[(text "grpc-timeout", plain (text "1S"))], text "localhost"⟩

/-- What a handler that succeeds returns. -/
def okResult : HandlerResult := ⟨some Status.okStatus, [7]⟩

/-- Calls whose stream closes with an expired timer, before or after the handler has returned. -/
theorem responds_once_example :
    (∃ u, (ServerCall.machine Zlib.none).run
        (ServerCall.new (ServerCallState.new 100 100 100 []))
        [.start timeoutRequest, .data (frameOf [1]), .data [], .expire, .handlerReturn 0 okResult,
          .poll 4, .timerHandler, .close] = some u ∧ Responds u.answered u.trace) ∧
      ∃ u, (ClientStreamingCall.machine Zlib.none).run
          (ClientStreamingCall.new (ClientStreamingCallState.new 100 100 100 []))
          [.start timeoutRequest, .data (frameOf [1]), .expire, .close, .timerHandler, .read,
            .handlerReturn okResult] = some u ∧ Responds u.answered u.trace := by
  obtain ⟨hunary, hstream⟩ := responds_once Zlib.none 100 100 100 []
  refine ⟨?_, ?_⟩
  · obtain ⟨u, hu⟩ := Option.isSome_iff_exists.1 (show ((ServerCall.machine Zlib.none).run
      (ServerCall.new (ServerCallState.new 100 100 100 []))
      [.start timeoutRequest, .data (frameOf [1]), .data [], .expire, .handlerReturn 0 okResult,
        .poll 4, .timerHandler, .close]).isSome = true by decide)
    exact ⟨u, hu, hunary _ u hu⟩
  · obtain ⟨u, hu⟩ := Option.isSome_iff_exists.1 (show ((ClientStreamingCall.machine Zlib.none).run
      (ClientStreamingCall.new (ClientStreamingCallState.new 100 100 100 []))
      [.start timeoutRequest, .data (frameOf [1]), .expire, .close, .timerHandler, .read,
        .handlerReturn okResult]).isSome = true by decide)
    exact ⟨u, hu, hstream _ u hu⟩

end Rpcpio.Server
