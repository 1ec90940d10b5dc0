import Rpcpio.Server.ClientStreamingCallState
import Rpcpio.Server.ServerStreamingCallState

/-!
# The bidirectional server call state

`BidiStreamingCallState` feeds its handler as a client-streaming call does, and answers through a
writer and its generator as a server-streaming call does. `BidiStreamingCall.step` runs the member
functions, the handler, its reads and writes, the generator and the deadline timer in any order; it
records what the reads return.
-/

set_option autoImplicit false

namespace Rpcpio.Server

open Rpcpio.Library Rpcpio.Protocol

/-- `BidiStreamingCallState`. -/
structure BidiStreamingCallState where
  maxMessageSize : Nat
  maxMetadataSize : Nat
  maxResponseSize : Nat
  peerIdentity : Bytes
  parser : StreamingFrameParser
  ctx : ServerContext
  timer : Timer
  responded : Bool
  closed : Bool
  readerImpl : RawServerReaderImpl
  writerImpl : RawServerWriterImpl
  deriving DecidableEq, Repr

namespace BidiStreamingCallState

/-- The constructor. -/
def new (maxMessageSize maxMetadataSize maxResponseSize : Nat) (peerIdentity : Bytes) :
    BidiStreamingCallState where
  maxMessageSize := maxMessageSize
  maxMetadataSize := maxMetadataSize
  maxResponseSize := maxResponseSize
  peerIdentity := peerIdentity
  parser := StreamingFrameParser.new maxMessageSize
  ctx := ServerContext.new
  timer := .idle
  responded := false
  closed := false
  readerImpl := RawServerReaderImpl.new
  writerImpl := RawServerWriterImpl.new maxResponseSize

/-- `reader_impl_->queue_.SetError`. -/
def setError (c : BidiStreamingCallState) (s : Status) : BidiStreamingCallState :=
  { c with readerImpl := ⟨c.readerImpl.queue.setError s⟩ }

/-- `writer_impl_->Finish`, where the source checks `finished_` first. -/
def finishWriter (c : BidiStreamingCallState) (s : Status) :
    BidiStreamingCallState × List ResponseCall :=
  if c.writerImpl.finished then (c, [])
  else ({ c with writerImpl := (c.writerImpl.finish s).1 }, (c.writerImpl.finish s).2)

/-- The calls of `SendHeaders`. -/
def sendHeaders (z : Zlib) (c : BidiStreamingCallState) : List ResponseCall :=
  [.writeHead 200 (streamHead z c.ctx), .endWith]

/-- `OnData`, which has no guard on `responded_`; an empty chunk is the half-close of the client. -/
def onData (c : BidiStreamingCallState) (chunk : Bytes) :
    BidiStreamingCallState × List ResponseCall :=
  if chunk.isEmpty then ({ c with readerImpl := ⟨c.readerImpl.queue.setEos⟩ }, [])
  else
    let r := c.parser.feed chunk
    let c := { c with parser := r.parser, readerImpl := c.readerImpl.pushAll r.messages }
    if r.status.isOk then (c, []) else (c.setError r.status).finishWriter r.status

/-- A call of the application on the writer. -/
def perform (c : BidiStreamingCallState) (w : WriterCall) :
    BidiStreamingCallState × List ResponseCall :=
  ({ c with writerImpl := (c.writerImpl.perform w).1 }, (c.writerImpl.perform w).2)

/-- `trigger_cancel`, with the writer calls of the slot handler. -/
def triggerCancel (c : BidiStreamingCallState) (slot : List WriterCall) :
    BidiStreamingCallState × List ResponseCall :=
  ({ c with
      ctx := c.ctx.triggerCancel
      writerImpl := (c.writerImpl.performAll slot).1 }, (c.writerImpl.performAll slot).2)

/-- `SendError`. -/
def sendError (z : Zlib) (c : BidiStreamingCallState) (s : Status) :
    BidiStreamingCallState × List ResponseCall :=
  if c.responded then (c, [])
  else ({ c with responded := true, timer := c.timer.cancel }, (errorReply z s).calls)

/-- `Start`: the state, the calls, and whether `on_data` is registered and the handler spawned. -/
def start (z : Zlib) (c : BidiStreamingCallState) (req : Request) :
    BidiStreamingCallState × List ResponseCall × Bool :=
  let metadata := nghttp2HeadersToMetadata req.header [] c.maxMetadataSize
  if !metadata.1.isOk then
    ((c.sendError z metadata.1).1, (c.sendError z metadata.1).2, false)
  else
    let ctx := { c.ctx with clientMetadata := metadata.2 }
    let d := armDeadline req (ctx.setPeer req c.peerIdentity) c.timer
    let c := { c with ctx := d.1, timer := d.2, responded := true }
    (c, c.sendHeaders z, true)

/-- The timer's completion handler, when it is not aborted. -/
def onDeadline (c : BidiStreamingCallState) (slot : List WriterCall) :
    BidiStreamingCallState × List ResponseCall :=
  let r := c.triggerCancel slot
  let s := (r.1.setError deadlineExceeded).finishWriter deadlineExceeded
  (s.1, r.2 ++ s.2)

/-- The closure dispatched by `Cancel`. -/
def cancel (z : Zlib) (c : BidiStreamingCallState) (s : Status) (slot : List WriterCall) :
    BidiStreamingCallState × List ResponseCall :=
  if c.closed || c.writerImpl.finished then (c, [])
  else
    let r := c.triggerCancel slot
    let c := r.1.setError s
    let t := if c.responded then c.perform (.finish s) else c.sendError z s
    (t.1, r.2 ++ t.2)

/-- `OnClose`. -/
def onClose (c : BidiStreamingCallState) (slot : List WriterCall) :
    BidiStreamingCallState × List ResponseCall :=
  if c.closed then (c, [])
  else
    let c := { c with closed := true, timer := c.timer.cancel }
    if c.writerImpl.finished then (c, [])
    else
      let r := c.triggerCancel slot
      let c := r.1.setError clientClosed
      ({ c with writerImpl := { c.writerImpl with finished := true } }, r.2)

/-- The end of the handler's coroutine. -/
def handlerReturned (c : BidiStreamingCallState) (status : Option Status) :
    BidiStreamingCallState × List ResponseCall :=
  { c with timer := c.timer.cancel }.finishWriter (handlerStatus status)

/-- `RawServerReader::Read`. -/
def read (c : BidiStreamingCallState) : BidiStreamingCallState × Option PopResult :=
  ({ c with readerImpl := c.readerImpl.read.1 }, c.readerImpl.read.2)

end BidiStreamingCallState

/-- A bidirectional call: the call state, whether the handler was spawned (and the generator
installed) and still runs, the results of its reads, and the trace. -/
structure BidiStreamingCall where
  call : BidiStreamingCallState
  started : Bool
  registered : Bool
  running : Bool
  results : List PopResult
  trace : List ResponseEffect
  deriving DecidableEq, Repr

/-- What can happen to a bidirectional call. -/
inductive BidiStreamingEvent where
  | start (req : Request)
  | data (chunk : Bytes)
  | expire
  | timerHandler (slot : List WriterCall)
  | cancel (s : Status) (slot : List WriterCall)
  | read
  | perform (w : WriterCall)
  | addMetadata (trailing : Bool) (key value : Bytes)
  | handlerReturn (status : Option Status)
  | close (slot : List WriterCall)
  | poll (len : Nat)
  deriving DecidableEq, Repr

namespace BidiStreamingCall

/-- A call before `Start`. -/
def new (c : BidiStreamingCallState) : BidiStreamingCall := ⟨c, false, false, false, [], []⟩

/-- The call after a member function that makes calls on the response. -/
def after (u : BidiStreamingCall) (r : BidiStreamingCallState × List ResponseCall) :
    BidiStreamingCall :=
  { u with call := r.1, trace := u.trace ++ r.2.map .call }

/-- A slot handler has the writer only once the handler was spawned. -/
def slotCalls (u : BidiStreamingCall) (slot : List WriterCall) : List WriterCall :=
  if u.registered then slot else []

/-- `OnClose`, and the mark that it has run. -/
def onClose (u : BidiStreamingCall) (slot : List WriterCall) : BidiStreamingCall :=
  if u.call.closed then u
  else
    let v := u.after (u.call.onClose (u.slotCalls slot))
    { v with trace := v.trace ++ [.closed] }

/-- One event. -/
def step (z : Zlib) (u : BidiStreamingCall) : BidiStreamingEvent → Option BidiStreamingCall
  | .start req =>
      if u.started then none
      else
        let r := u.call.start z req
        some ({ u with started := true, registered := r.2.2, running := r.2.2 }.after
          (r.1, r.2.1))
  | .data chunk => if u.registered then some (u.after (u.call.onData chunk)) else none
  | .expire => u.call.timer.expire.map fun t => { u with call := { u.call with timer := t } }
  | .timerHandler slot =>
      u.call.timer.fire.map fun t =>
        u.after ({ u.call with timer := t }.onDeadline (u.slotCalls slot))
  | .cancel s slot => some (u.after (u.call.cancel z s (u.slotCalls slot)))
  | .read =>
      if u.registered && u.call.readerImpl.queue.canPop then
        some { u with call := u.call.read.1, results := u.results ++ u.call.read.2.toList }
      else none
  | .perform w => if u.registered then some (u.after (u.call.perform w)) else none
  | .addMetadata trailing key value =>
      if u.registered then
        some { u with
          call := { u.call with ctx := u.call.ctx.addMetadata trailing key value } }
      else none
  | .handlerReturn status =>
      if u.running then
        some ({ u with running := false }.after (u.call.handlerReturned status))
      else none
  | .close slot => if u.started then some (u.onClose slot) else none
  | .poll len =>
      if u.registered && !u.call.closed then
        let r := u.call.writerImpl.generate len
        some (u.after ({ u.call with writerImpl := r.1 }, r.2.2))
      else none

/-- The calls as a machine. -/
def machine (z : Zlib) : Machine BidiStreamingCall BidiStreamingEvent := ⟨step z⟩

/-! ## What an event does -/

/-- What an event does to a call, with what it needs. Invariants are proved over these cases, not
over the branches of `step`. -/
inductive Move (z : Zlib) (u : BidiStreamingCall) : BidiStreamingEvent → BidiStreamingCall → Prop
  | start (req : Request) (hnew : u.started = false) :
      Move z u (.start req)
        ({ u with
          started := true
          registered := (u.call.start z req).2.2
          running := (u.call.start z req).2.2 }.after
            ((u.call.start z req).1, (u.call.start z req).2.1))
  | data (chunk : Bytes) (hreg : u.registered = true) :
      Move z u (.data chunk) (u.after (u.call.onData chunk))
  | expire (t : Timer) (ht : u.call.timer.expire = some t) :
      Move z u .expire { u with call := { u.call with timer := t } }
  | timerHandler (slot : List WriterCall) (t : Timer) (ht : u.call.timer.fire = some t) :
      Move z u (.timerHandler slot)
        (u.after ({ u.call with timer := t }.onDeadline (u.slotCalls slot)))
  | cancel (s : Status) (slot : List WriterCall) :
      Move z u (.cancel s slot) (u.after (u.call.cancel z s (u.slotCalls slot)))
  | read (hreg : u.registered = true) (hpop : u.call.readerImpl.queue.canPop = true) :
      Move z u .read
        { u with call := u.call.read.1, results := u.results ++ u.call.read.2.toList }
  | perform (w : WriterCall) (hreg : u.registered = true) :
      Move z u (.perform w) (u.after (u.call.perform w))
  | addMetadata (trailing : Bool) (key value : Bytes) (hreg : u.registered = true) :
      Move z u (.addMetadata trailing key value) { u with
        call := { u.call with ctx := u.call.ctx.addMetadata trailing key value } }
  | handlerReturn (status : Option Status) (hrun : u.running = true) :
      Move z u (.handlerReturn status)
        ({ u with running := false }.after (u.call.handlerReturned status))
  | closeAgain (slot : List WriterCall) (hstart : u.started = true) (hclosed : u.call.closed = true) :
      Move z u (.close slot) u
  | close (slot : List WriterCall) (hstart : u.started = true) (hopen : u.call.closed = false) :
      Move z u (.close slot) { u.after (u.call.onClose (u.slotCalls slot)) with
        trace := (u.after (u.call.onClose (u.slotCalls slot))).trace ++ [.closed] }
  | poll (len : Nat) (hreg : u.registered = true) (hopen : u.call.closed = false) :
      Move z u (.poll len)
        (u.after ({ u.call with writerImpl := (u.call.writerImpl.generate len).1 },
          (u.call.writerImpl.generate len).2.2))

/-- **Every step is one of the moves.** -/
theorem step_move {z : Zlib} {u u' : BidiStreamingCall} {e : BidiStreamingEvent}
    (h : step z u e = some u') : Move z u e u' := by
  cases e with
  | start req =>
      simp only [step, Option.ite_none_left_eq_some, Option.some.injEq, Bool.not_eq_true] at h
      obtain ⟨hnew, rfl⟩ := h
      exact .start req hnew
  | data chunk =>
      simp only [step, Option.ite_none_right_eq_some, Option.some.injEq] at h
      obtain ⟨hreg, rfl⟩ := h
      exact .data chunk hreg
  | expire =>
      obtain ⟨t, ht, rfl⟩ := Option.map_eq_some_iff.1 h
      exact .expire t ht
  | timerHandler slot =>
      obtain ⟨t, ht, rfl⟩ := Option.map_eq_some_iff.1 h
      exact .timerHandler slot t ht
  | cancel s slot =>
      cases h
      exact .cancel s slot
  | read =>
      simp only [step, Option.ite_none_right_eq_some, Option.some.injEq, Bool.and_eq_true] at h
      obtain ⟨⟨hreg, hpop⟩, rfl⟩ := h
      exact .read hreg hpop
  | perform w =>
      simp only [step, Option.ite_none_right_eq_some, Option.some.injEq] at h
      obtain ⟨hreg, rfl⟩ := h
      exact .perform w hreg
  | addMetadata trailing key value =>
      simp only [step, Option.ite_none_right_eq_some, Option.some.injEq] at h
      obtain ⟨hreg, rfl⟩ := h
      exact .addMetadata trailing key value hreg
  | handlerReturn status =>
      simp only [step, Option.ite_none_right_eq_some, Option.some.injEq] at h
      obtain ⟨hrun, rfl⟩ := h
      exact .handlerReturn status hrun
  | close slot =>
      simp only [step, Option.ite_none_right_eq_some, Option.some.injEq] at h
      obtain ⟨hstart, rfl⟩ := h
      rw [onClose]
      -- `OnClose` looks at `closed_` first
      cases hc : u.call.closed with
      | true => exact .closeAgain slot hstart hc
      | false => exact .close slot hstart hc
  | poll len =>
      simp only [step, Option.ite_none_right_eq_some, Option.some.injEq, Bool.and_eq_true,
        Bool.not_eq_true'] at h
      obtain ⟨⟨hreg, hopen⟩, rfl⟩ := h
      exact .poll len hreg hopen

end BidiStreamingCall

end Rpcpio.Server
