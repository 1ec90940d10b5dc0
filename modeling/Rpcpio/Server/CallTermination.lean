import Rpcpio.Server.AnyServerCall
import Rpcpio.Server.ResponseLifetime

/-!
# Terminal calls

A call state is terminal from its `OnClose` on (`ServerCallStateBase::IsTerminal`). The four
machines run here as one, with the steps that other threads take on a call set apart: `Start` by the
thread of `HandleRequest`, and the closure that `Cancel` dispatches.
-/

set_option autoImplicit false

namespace Rpcpio.Server

open Rpcpio.Library Rpcpio.Protocol

/-- An event of a call of some kind. -/
inductive AnyServerCallEvent where
  | unary (e : ServerCallEvent)
  | clientStreaming (e : ClientStreamingEvent)
  | serverStreaming (e : ServerStreamingEvent)
  | bidi (e : BidiStreamingEvent)
  deriving DecidableEq, Repr

/-- The events of the connection, the timer and the handler: neither `Start` nor `Cancel`. -/
def AnyServerCallEvent.own : AnyServerCallEvent → Bool
  | .unary (.start _) | .unary (.cancel _) => false
  | .clientStreaming (.start _) | .clientStreaming (.cancel _) => false
  | .serverStreaming (.start _) | .serverStreaming (.cancel _ _) => false
  | .bidi (.start _) | .bidi (.cancel _ _) => false
  | _ => true

namespace AnyServerCall

/-- One event of a call; an event of another kind of call does not occur. -/
def step (z : Zlib) : AnyServerCall → AnyServerCallEvent → Option AnyServerCall
  | .unary u, .unary e => (u.step z e).map .unary
  | .clientStreaming u, .clientStreaming e => (u.step z e).map .clientStreaming
  | .serverStreaming u, .serverStreaming e => (u.step z e).map .serverStreaming
  | .bidi u, .bidi e => (u.step z e).map .bidi
  | _, _ => none

/-- `Start`, as an event. -/
def startEvent (req : Request) : AnyServerCall → AnyServerCallEvent
  | .unary _ => .unary (.start req)
  | .clientStreaming _ => .clientStreaming (.start req)
  | .serverStreaming _ => .serverStreaming (.start req)
  | .bidi _ => .bidi (.start req)

/-- The closure of `Cancel`, as an event; `slot` is what the handler's cancellation slot does. -/
def cancelEvent (s : Status) (slot : List WriterCall) : AnyServerCall → AnyServerCallEvent
  | .unary _ => .unary (.cancel s)
  | .clientStreaming _ => .clientStreaming (.cancel s)
  | .serverStreaming _ => .serverStreaming (.cancel s slot)
  | .bidi _ => .bidi (.cancel s slot)

end AnyServerCall

/-! ## `closed_` is set for good -/

/-- A reply and a close keep or set the flag. -/
theorem Responder.move_closed {g : Responder} (h : g.closed = true) (m : ResponseMove) :
    (g.move m).closed = true := by
  cases m with
  | stay => exact h
  | reply r =>
      simp only [move, reply]
      split <;> exact h
  | handlerReturned r =>
      simp only [move, reply]
      split <;> exact h
  | close =>
      simp only [move, close]
      rw [if_pos h]
      exact h
  | trailer headers => exact h

theorem ServerCall.closed_step {z : Zlib} {u u' : ServerCall} {e : ServerCallEvent}
    (h : u.call.closed = true) (hst : step z u e = some u') : u'.call.closed = true := by
  obtain ⟨m, hm⟩ := step_responder hst
  have hmove := Responder.move_closed (g := u.responder) h m
  rw [← hm] at hmove
  exact hmove

theorem ClientStreamingCall.closed_step {z : Zlib} {u u' : ClientStreamingCall}
    {e : ClientStreamingEvent} (h : u.call.closed = true) (hst : step z u e = some u') :
    u'.call.closed = true := by
  obtain ⟨m, hm⟩ := step_responder hst
  have hmove := Responder.move_closed (g := u.responder) h m
  rw [← hm] at hmove
  exact hmove

theorem ServerStreamingCall.closed_step {z : Zlib} {u u' : ServerStreamingCall}
    {e : ServerStreamingEvent} (h : u.call.closed = true) (hst : step z u e = some u') :
    u'.call.closed = true := by
  cases step_move hst with
  | start req hnew => exact (ServerStreamingCallState.headStep_start u.call req).2.trans h
  | data chunk hreg => exact (ServerStreamingCallState.headStep_onData u.call chunk).2.1.trans h
  | expire t ht => exact h
  | timerHandler slot t ht =>
      simp only [after, ServerStreamingCallState.onDeadline,
        ServerStreamingCallState.sendError_closed]
      exact h
  | cancel s slot => exact (ServerStreamingCallState.memberStep_cancel u.call s _).closed.trans h
  | perform w hspawned => exact h
  | addMetadata trailing key value hspawned => exact h
  | handlerReturn i status req hi =>
      exact (ServerStreamingCallState.memberStep_handlerReturned u.call status).closed.trans h
  | closeAgain slot hstart hclosed => exact h
  | close slot hstart hopen =>
      rw [h] at hopen
      cases hopen
  | poll len hspawned hopen =>
      -- a closed response is not polled
      rw [h] at hopen
      cases hopen

namespace BidiStreamingCallState

theorem finishWriter_closed (c : BidiStreamingCallState) (s : Status) :
    (c.finishWriter s).1.closed = c.closed := by
  simp only [finishWriter]
  split <;> rfl

theorem sendError_closed {z : Zlib} (c : BidiStreamingCallState) (s : Status) :
    (c.sendError z s).1.closed = c.closed := by
  simp only [sendError]
  split <;> rfl

theorem start_closed {z : Zlib} (c : BidiStreamingCallState) (req : Request) :
    (c.start z req).1.closed = c.closed := by
  simp only [start]
  split
  · exact sendError_closed c _
  · rfl

theorem onData_closed (c : BidiStreamingCallState) (chunk : Bytes) :
    (c.onData chunk).1.closed = c.closed := by
  simp only [onData]
  split
  · rfl
  · split
    · rfl
    · exact finishWriter_closed _ _

theorem onDeadline_closed (c : BidiStreamingCallState) (slot : List WriterCall) :
    (c.onDeadline slot).1.closed = c.closed := finishWriter_closed _ _

theorem cancel_closed {z : Zlib} (c : BidiStreamingCallState) (s : Status)
    (slot : List WriterCall) : (c.cancel z s slot).1.closed = c.closed := by
  simp only [cancel]
  split
  · rfl
  · split
    · rfl
    · exact sendError_closed _ _

theorem handlerReturned_closed (c : BidiStreamingCallState) (status : Option Status) :
    (c.handlerReturned status).1.closed = c.closed := finishWriter_closed _ _

end BidiStreamingCallState

theorem BidiStreamingCall.closed_step {z : Zlib} {u u' : BidiStreamingCall}
    {e : BidiStreamingEvent} (h : u.call.closed = true) (hst : step z u e = some u') :
    u'.call.closed = true := by
  cases step_move hst with
  | start req hnew => exact (u.call.start_closed req).trans h
  | data chunk hreg => exact (u.call.onData_closed chunk).trans h
  | expire t ht => exact h
  | timerHandler slot t ht => exact (BidiStreamingCallState.onDeadline_closed _ _).trans h
  | cancel s slot => exact (u.call.cancel_closed s _).trans h
  | read hreg hpop => exact h
  | perform w hreg => exact h
  | addMetadata trailing key value hreg => exact h
  | handlerReturn status hrun => exact (u.call.handlerReturned_closed status).trans h
  | closeAgain slot hstart hclosed => exact h
  | close slot hstart hopen =>
      rw [h] at hopen
      cases hopen
  | poll len hreg hopen =>
      -- a closed response is not polled
      rw [h] at hopen
      cases hopen

/-- **A terminal call stays terminal.** -/
theorem AnyServerCall.closed_step {z : Zlib} {c c' : AnyServerCall} {e : AnyServerCallEvent}
    (h : c.closed = true) (hst : c.step z e = some c') : c'.closed = true := by
  cases c with
  | unary u =>
      cases e with
      | unary e =>
          obtain ⟨u', hu, rfl⟩ := Option.map_eq_some_iff.1 hst
          exact ServerCall.closed_step h hu
      | _ => cases hst
  | clientStreaming u =>
      cases e with
      | clientStreaming e =>
          obtain ⟨u', hu, rfl⟩ := Option.map_eq_some_iff.1 hst
          exact ClientStreamingCall.closed_step h hu
      | _ => cases hst
  | serverStreaming u =>
      cases e with
      | serverStreaming e =>
          obtain ⟨u', hu, rfl⟩ := Option.map_eq_some_iff.1 hst
          exact ServerStreamingCall.closed_step h hu
      | _ => cases hst
  | bidi u =>
      cases e with
      | bidi e =>
          obtain ⟨u', hu, rfl⟩ := Option.map_eq_some_iff.1 hst
          exact BidiStreamingCall.closed_step h hu
      | _ => cases hst

end Rpcpio.Server
