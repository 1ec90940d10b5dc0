import Rpcpio.Library.Machine
import Rpcpio.Server.RawServerImpls
import Rpcpio.Server.Responder

/-!
# The server-streaming call state

`ServerStreamingCallState` collects the single request message, writes the response headers,
installs the body generator of its writer and runs the handler. `ServerStreamingCall.step` runs the
member functions, the handler, its writes, the generator and the deadline timer in any order.
Emitting the cancellation signal runs the slot handler that the application may have set, which
holds the writer: the events that call `trigger_cancel` carry the writer calls it makes.
-/

set_option autoImplicit false

namespace Rpcpio.Server

open Rpcpio.Library Rpcpio.Protocol

/-- A call of the application on its writer. -/
inductive WriterCall where
  | write (payload : Bytes)
  | finish (s : Status)
  deriving DecidableEq, Repr

namespace RawServerWriterImpl

/-- One call of the application. -/
def perform (w : RawServerWriterImpl) : WriterCall → RawServerWriterImpl × List ResponseCall
  | .write payload => ((w.write payload).1, (w.write payload).2.2)
  | .finish s => w.finish s

/-- The calls of a slot handler, in order. -/
def performAll (w : RawServerWriterImpl) :
    List WriterCall → RawServerWriterImpl × List ResponseCall
  | [] => (w, [])
  | c :: cs =>
      let r := (w.perform c).1.performAll cs
      (r.1, (w.perform c).2 ++ r.2)

end RawServerWriterImpl

/-- `ServerStreamingCallState`. -/
structure ServerStreamingCallState where
  maxRequestSize : Nat
  maxMetadataSize : Nat
  maxResponseSize : Nat
  peerIdentity : Bytes
  decoder : FrameDecoder
  ctx : ServerContext
  timer : Timer
  writerImpl : RawServerWriterImpl
  responded : Bool
  closed : Bool
  deriving DecidableEq, Repr

namespace ServerStreamingCallState

/-- The constructor. -/
def new (maxRequestSize maxMetadataSize maxResponseSize : Nat) (peerIdentity : Bytes) :
    ServerStreamingCallState where
  maxRequestSize := maxRequestSize
  maxMetadataSize := maxMetadataSize
  maxResponseSize := maxResponseSize
  peerIdentity := peerIdentity
  decoder := FrameDecoder.new maxRequestSize
  ctx := ServerContext.new
  timer := .idle
  writerImpl := RawServerWriterImpl.new maxResponseSize
  responded := false
  closed := false

/-- A call of the application on the writer. -/
def perform (c : ServerStreamingCallState) (w : WriterCall) :
    ServerStreamingCallState × List ResponseCall :=
  ({ c with writerImpl := (c.writerImpl.perform w).1 }, (c.writerImpl.perform w).2)

/-- `trigger_cancel`, with the writer calls of the slot handler. -/
def triggerCancel (c : ServerStreamingCallState) (slot : List WriterCall) :
    ServerStreamingCallState × List ResponseCall :=
  ({ c with
      ctx := c.ctx.triggerCancel
      writerImpl := (c.writerImpl.performAll slot).1 }, (c.writerImpl.performAll slot).2)

/-- `SendError`. -/
def sendError (z : Zlib) (c : ServerStreamingCallState) (s : Status) :
    ServerStreamingCallState × List ResponseCall :=
  if c.responded then (c, [])
  else ({ c with responded := true, timer := c.timer.cancel }, (errorReply z s).calls)

/-- The calls of `SendHeaders`. -/
def sendHeaders (z : Zlib) (c : ServerStreamingCallState) : List ResponseCall :=
  [.writeHead 200 (streamHead z c.ctx), .endWith]

/-- `Start`: the state, the calls, and whether `on_data` is registered. -/
def start (z : Zlib) (c : ServerStreamingCallState) (req : Request) :
    ServerStreamingCallState × List ResponseCall × Bool :=
  let metadata := nghttp2HeadersToMetadata req.header [] c.maxMetadataSize
  if !metadata.1.isOk then
    ((c.sendError z metadata.1).1, (c.sendError z metadata.1).2, false)
  else
    let ctx := { c.ctx with clientMetadata := metadata.2 }
    let d := armDeadline req (ctx.setPeer req c.peerIdentity) c.timer
    ({ c with ctx := d.1, timer := d.2 }, [], true)

/-- `OnRequestEnd`: the state, the calls, and the request of the handler that it spawns. -/
def onRequestEnd (z : Zlib) (c : ServerStreamingCallState) :
    ServerStreamingCallState × List ResponseCall × Option Bytes :=
  let error (s : Status) := ((c.sendError z s).1, (c.sendError z s).2, (none : Option Bytes))
  if c.responded then (c, [], none)
  else if c.decoder.isError then error (requestFramingError c.decoder)
  else if !c.decoder.isDone then
    error (Status.of .invalidArgument (text "incomplete request message"))
  else
    let c := { c with responded := true, timer := c.timer.cancel }
    (c, c.sendHeaders z, some c.decoder.payload)

/-- `OnData`; an empty chunk is the end of the request. -/
def onData (z : Zlib) (c : ServerStreamingCallState) (chunk : Bytes) :
    ServerStreamingCallState × List ResponseCall × Option Bytes :=
  if c.responded then (c, [], none)
  else if chunk.isEmpty then { c with decoder := c.decoder.markEos }.onRequestEnd z
  else
    let c := { c with decoder := c.decoder.feed chunk }
    if c.decoder.isError then
      ((c.sendError z (requestFramingError c.decoder)).1,
        (c.sendError z (requestFramingError c.decoder)).2, none)
    else (c, [], none)

/-- The timer's completion handler, when it is not aborted. -/
def onDeadline (z : Zlib) (c : ServerStreamingCallState) (slot : List WriterCall) :
    ServerStreamingCallState × List ResponseCall :=
  let r := c.triggerCancel slot
  let s := r.1.sendError z deadlineExceeded
  (s.1, r.2 ++ s.2)

/-- The closure dispatched by `Cancel`. -/
def cancel (z : Zlib) (c : ServerStreamingCallState) (s : Status) (slot : List WriterCall) :
    ServerStreamingCallState × List ResponseCall :=
  if c.closed || c.writerImpl.finished then (c, [])
  else
    let r := c.triggerCancel slot
    let s := if r.1.responded then r.1.perform (.finish s) else r.1.sendError z s
    (s.1, r.2 ++ s.2)

/-- `OnClose`. -/
def onClose (c : ServerStreamingCallState) (slot : List WriterCall) :
    ServerStreamingCallState × List ResponseCall :=
  if c.closed then (c, [])
  else
    let c := { c with closed := true, timer := c.timer.cancel }
    if c.writerImpl.finished then (c, [])
    else
      let r := c.triggerCancel slot
      ({ r.1 with writerImpl := { r.1.writerImpl with finished := true } }, r.2)

/-- The end of the handler's coroutine. -/
def handlerReturned (c : ServerStreamingCallState) (status : Option Status) :
    ServerStreamingCallState × List ResponseCall :=
  if c.writerImpl.finished then (c, []) else c.perform (.finish (handlerStatus status))

end ServerStreamingCallState

/-- A server-streaming call: the call state, the running handlers with their requests, whether a
handler was given the writer (and the generator installed), and the trace. -/
structure ServerStreamingCall where
  call : ServerStreamingCallState
  started : Bool
  registered : Bool
  spawned : Bool
  handlers : List Bytes
  trace : List ResponseEffect
  deriving DecidableEq, Repr

/-- What can happen to a server-streaming call. -/
inductive ServerStreamingEvent where
  | start (req : Request)
  | data (chunk : Bytes)
  | expire
  | timerHandler (slot : List WriterCall)
  | cancel (s : Status) (slot : List WriterCall)
  | perform (w : WriterCall)
  | addMetadata (trailing : Bool) (key value : Bytes)
  | handlerReturn (i : Nat) (status : Option Status)
  | close (slot : List WriterCall)
  | poll (len : Nat)
  deriving DecidableEq, Repr

namespace ServerStreamingCall

/-- A call before `Start`. -/
def new (c : ServerStreamingCallState) : ServerStreamingCall := ⟨c, false, false, false, [], []⟩

/-- The call after a member function that makes calls on the response. -/
def after (u : ServerStreamingCall) (r : ServerStreamingCallState × List ResponseCall) :
    ServerStreamingCall :=
  { u with call := r.1, trace := u.trace ++ r.2.map .call }

/-- A slot handler has the writer only once a handler was spawned. -/
def slotCalls (u : ServerStreamingCall) (slot : List WriterCall) : List WriterCall :=
  if u.spawned then slot else []

/-- `OnClose`, and the mark that it has run. -/
def onClose (u : ServerStreamingCall) (slot : List WriterCall) : ServerStreamingCall :=
  if u.call.closed then u
  else
    let v := u.after (u.call.onClose (u.slotCalls slot))
    { v with trace := v.trace ++ [.closed] }

/-- One event. -/
def step (z : Zlib) (u : ServerStreamingCall) :
    ServerStreamingEvent → Option ServerStreamingCall
  | .start req =>
      if u.started then none
      else
        let r := u.call.start z req
        some ({ u with started := true, registered := r.2.2 }.after (r.1, r.2.1))
  | .data chunk =>
      if u.registered then
        let r := u.call.onData z chunk
        some ({ u with
          spawned := u.spawned || r.2.2.isSome
          handlers := u.handlers ++ r.2.2.toList }.after (r.1, r.2.1))
      else none
  | .expire => u.call.timer.expire.map fun t => { u with call := { u.call with timer := t } }
  | .timerHandler slot =>
      u.call.timer.fire.map fun t =>
        u.after ({ u.call with timer := t }.onDeadline z (u.slotCalls slot))
  | .cancel s slot => some (u.after (u.call.cancel z s (u.slotCalls slot)))
  | .perform w => if u.spawned then some (u.after (u.call.perform w)) else none
  | .addMetadata trailing key value =>
      if u.spawned then
        some { u with
          call := { u.call with ctx := u.call.ctx.addMetadata trailing key value } }
      else none
  | .handlerReturn i status =>
      u.handlers[i]?.map fun _ =>
        { u with handlers := u.handlers.eraseIdx i }.after (u.call.handlerReturned status)
  | .close slot => if u.started then some (u.onClose slot) else none
  | .poll len =>
      if u.spawned && !u.call.closed then
        let r := u.call.writerImpl.generate len
        some (u.after ({ u.call with writerImpl := r.1 }, r.2.2))
      else none

/-- The calls as a machine. -/
def machine (z : Zlib) : Machine ServerStreamingCall ServerStreamingEvent := ⟨step z⟩

/-! ## What an event does -/

/-- What an event does to a call, with what it needs. Invariants are proved over these cases, not
over the branches of `step`. -/
inductive Move (z : Zlib) (u : ServerStreamingCall) :
    ServerStreamingEvent → ServerStreamingCall → Prop
  | start (req : Request) (hnew : u.started = false) :
      Move z u (.start req)
        ({ u with started := true, registered := (u.call.start z req).2.2 }.after
          ((u.call.start z req).1, (u.call.start z req).2.1))
  | data (chunk : Bytes) (hreg : u.registered = true) :
      Move z u (.data chunk)
        ({ u with
          spawned := u.spawned || (u.call.onData z chunk).2.2.isSome
          handlers := u.handlers ++ (u.call.onData z chunk).2.2.toList }.after
            ((u.call.onData z chunk).1, (u.call.onData z chunk).2.1))
  | expire (t : Timer) (ht : u.call.timer.expire = some t) :
      Move z u .expire { u with call := { u.call with timer := t } }
  | timerHandler (slot : List WriterCall) (t : Timer) (ht : u.call.timer.fire = some t) :
      Move z u (.timerHandler slot)
        (u.after ({ u.call with timer := t }.onDeadline z (u.slotCalls slot)))
  | cancel (s : Status) (slot : List WriterCall) :
      Move z u (.cancel s slot) (u.after (u.call.cancel z s (u.slotCalls slot)))
  | perform (w : WriterCall) (hspawned : u.spawned = true) :
      Move z u (.perform w) (u.after (u.call.perform w))
  | addMetadata (trailing : Bool) (key value : Bytes) (hspawned : u.spawned = true) :
      Move z u (.addMetadata trailing key value) { u with
        call := { u.call with ctx := u.call.ctx.addMetadata trailing key value } }
  | handlerReturn (i : Nat) (status : Option Status) (req : Bytes)
      (hi : u.handlers[i]? = some req) :
      Move z u (.handlerReturn i status)
        ({ u with handlers := u.handlers.eraseIdx i }.after (u.call.handlerReturned status))
  | closeAgain (slot : List WriterCall) (hstart : u.started = true) (hclosed : u.call.closed = true) :
      Move z u (.close slot) u
  | close (slot : List WriterCall) (hstart : u.started = true) (hopen : u.call.closed = false) :
      Move z u (.close slot) { u.after (u.call.onClose (u.slotCalls slot)) with
        trace := (u.after (u.call.onClose (u.slotCalls slot))).trace ++ [.closed] }
  | poll (len : Nat) (hspawned : u.spawned = true) (hopen : u.call.closed = false) :
      Move z u (.poll len)
        (u.after ({ u.call with writerImpl := (u.call.writerImpl.generate len).1 },
          (u.call.writerImpl.generate len).2.2))

/-- **Every step is one of the moves.** -/
theorem step_move {z : Zlib} {u u' : ServerStreamingCall} {e : ServerStreamingEvent}
    (h : step z u e = some u') : Move z u e u' := by
  cases e with
  | start req =>
      simp only [step, Option.ite_none_left_eq_some, Option.some.injEq, Bool.not_eq_true] at h
      obtain ⟨hnew, rfl⟩ := h
      exact .start req hnew
  | data chunk =>
      simp only [step, Option.ite_none_right_eq_some, Option.some.injEq] at h
      obtain ⟨hreg, rfl⟩ := h
      exact .data chunk hreg
  | expire =>
      obtain ⟨t, ht, rfl⟩ := Option.map_eq_some_iff.1 h
      exact .expire t ht
  | timerHandler slot =>
      obtain ⟨t, ht, rfl⟩ := Option.map_eq_some_iff.1 h
      exact .timerHandler slot t ht
  | cancel s slot =>
      cases h
      exact .cancel s slot
  | perform w =>
      simp only [step, Option.ite_none_right_eq_some, Option.some.injEq] at h
      obtain ⟨hspawned, rfl⟩ := h
      exact .perform w hspawned
  | addMetadata trailing key value =>
      simp only [step, Option.ite_none_right_eq_some, Option.some.injEq] at h
      obtain ⟨hspawned, rfl⟩ := h
      exact .addMetadata trailing key value hspawned
  | handlerReturn i status =>
      obtain ⟨req, hi, rfl⟩ := Option.map_eq_some_iff.1 h
      exact .handlerReturn i status req hi
  | close slot =>
      simp only [step, Option.ite_none_right_eq_some, Option.some.injEq] at h
      obtain ⟨hstart, rfl⟩ := h
      rw [onClose]
      -- `OnClose` looks at `closed_` first
      cases hc : u.call.closed with
      | true => exact .closeAgain slot hstart hc
      | false => exact .close slot hstart hc
  | poll len =>
      simp only [step, Option.ite_none_right_eq_some, Option.some.injEq, Bool.and_eq_true,
        Bool.not_eq_true'] at h
      obtain ⟨⟨hspawned, hopen⟩, rfl⟩ := h
      exact .poll len hspawned hopen

end ServerStreamingCall

end Rpcpio.Server
