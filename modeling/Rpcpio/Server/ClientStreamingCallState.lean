import Rpcpio.Library.Machine
import Rpcpio.Protocol.StreamParsing
import Rpcpio.Server.RawServerImpls
import Rpcpio.Server.Responder

/-!
# The client-streaming server call state

`ClientStreamingCallState` starts its handler at once and feeds it the decoded messages through the
reader's queue; the response is written as for a unary call. `ClientStreamingCall.step` runs the
member functions, the handler, its reads and the deadline timer in any order.
-/

set_option autoImplicit false

namespace Rpcpio.Server

open Rpcpio.Library Rpcpio.Protocol

/-- `ClientStreamingCallState`. -/
structure ClientStreamingCallState where
  maxMessageSize : Nat
  maxMetadataSize : Nat
  maxResponseSize : Nat
  peerIdentity : Bytes
  parser : StreamingFrameParser
  ctx : ServerContext
  timer : Timer
  responded : Bool
  closed : Bool
  readerImpl : RawServerReaderImpl
  deriving DecidableEq, Repr

/-- The status of the queue when the client closes the stream. -/
def clientClosed : Status := Status.of .cancelled (text "client closed the stream")

/-- The closure that pushes the decoded messages. -/
def RawServerReaderImpl.pushAll (r : RawServerReaderImpl) (messages : List Bytes) :
    RawServerReaderImpl :=
  ⟨messages.foldl StreamMessageQueue.push r.queue⟩

namespace ClientStreamingCallState

/-- The constructor. -/
def new (maxMessageSize maxMetadataSize maxResponseSize : Nat) (peerIdentity : Bytes) :
    ClientStreamingCallState where
  maxMessageSize := maxMessageSize
  maxMetadataSize := maxMetadataSize
  maxResponseSize := maxResponseSize
  peerIdentity := peerIdentity
  parser := StreamingFrameParser.new maxMessageSize
  ctx := ServerContext.new
  timer := .idle
  responded := false
  closed := false
  readerImpl := RawServerReaderImpl.new

/-- `reader_impl_->queue_.SetError`. -/
def setError (c : ClientStreamingCallState) (s : Status) : ClientStreamingCallState :=
  { c with readerImpl := ⟨c.readerImpl.queue.setError s⟩ }

/-- `SendError`: the state, and the reply that it sends. -/
def sendError (z : Zlib) (c : ClientStreamingCallState) (s : Status) :
    ClientStreamingCallState × Option Reply :=
  if c.responded then (c, none)
  else ({ c with responded := true, timer := c.timer.cancel }, some (errorReply z s))

/-- `SendResponse`, which checks the size of the response before its status. -/
def sendResponse (z : Zlib) (c : ClientStreamingCallState) (s : Status) (respBytes : Bytes) :
    ClientStreamingCallState × Option Reply :=
  if c.responded then (c, none)
  else if s.isOk && !respBytes.isEmpty && c.maxResponseSize < respBytes.length then
    ({ c with responded := true, timer := c.timer.cancel }, some (errorReply z responseTooLarge))
  else
    let c := { c with responded := true }
    let head := metadataToNghttp2Headers c.ctx.initialMetadata (addCommonHeaders z [])
    if !s.isOk then (c, some ⟨buildTrailers s c.ctx.trailingMetadata head, none⟩)
    else
      (c, some ⟨head,
        some ⟨(encodeFrame 0 respBytes).getD [], 0, buildTrailers s c.ctx.trailingMetadata []⟩⟩)

/-- `Start`: the state, the reply, and whether `on_data` is registered and the handler spawned. -/
def start (z : Zlib) (c : ClientStreamingCallState) (req : Request) :
    ClientStreamingCallState × Option Reply × Bool :=
  let metadata := nghttp2HeadersToMetadata req.header [] c.maxMetadataSize
  if !metadata.1.isOk then
    ((c.sendError z metadata.1).1, (c.sendError z metadata.1).2, false)
  else
    let ctx := { c.ctx with clientMetadata := metadata.2 }
    let d := armDeadline req (ctx.setPeer req c.peerIdentity) c.timer
    ({ c with ctx := d.1, timer := d.2 }, none, true)

/-- `OnData`; an empty chunk is the half-close of the client. -/
def onData (z : Zlib) (c : ClientStreamingCallState) (chunk : Bytes) :
    ClientStreamingCallState × Option Reply :=
  if c.responded then (c, none)
  else if chunk.isEmpty then ({ c with readerImpl := ⟨c.readerImpl.queue.setEos⟩ }, none)
  else
    let r := c.parser.feed chunk
    let c := { c with parser := r.parser, readerImpl := c.readerImpl.pushAll r.messages }
    if r.status.isOk then (c, none) else (c.setError r.status).sendError z r.status

/-- The timer's completion handler, when it is not aborted. -/
def onDeadline (z : Zlib) (c : ClientStreamingCallState) :
    ClientStreamingCallState × Option Reply :=
  ({ c with ctx := c.ctx.triggerCancel }.setError deadlineExceeded).sendError z deadlineExceeded

/-- The closure dispatched by `Cancel`. -/
def cancel (z : Zlib) (c : ClientStreamingCallState) (s : Status) :
    ClientStreamingCallState × Option Reply :=
  if c.closed || c.responded then (c, none)
  else ({ c with ctx := c.ctx.triggerCancel }.setError s).sendError z s

/-- `OnClose`. -/
def onClose (c : ClientStreamingCallState) : ClientStreamingCallState :=
  if c.closed then c
  else
    let c := { c with closed := true, timer := c.timer.cancel }
    if c.responded then c
    else { { c with ctx := c.ctx.triggerCancel }.setError clientClosed with responded := true }

/-- The end of the handler's coroutine. -/
def handlerReturned (z : Zlib) (c : ClientStreamingCallState) (r : HandlerResult) :
    ClientStreamingCallState × Option Reply :=
  if c.responded then (c, none)
  else { c with timer := c.timer.cancel }.sendResponse z (handlerStatus r.status) r.respBytes

end ClientStreamingCallState

/-- A client-streaming server call: the call state, whether the handler runs, the body that the
session drains, and the trace. -/
structure ClientStreamingCall where
  call : ClientStreamingCallState
  started : Bool
  registered : Bool
  running : Bool
  body : Option ResponseBody
  answered : Bool
  trace : List ResponseEffect
  deriving DecidableEq, Repr

/-- What can happen to a client-streaming server call. -/
inductive ClientStreamingEvent where
  | start (req : Request)
  | data (chunk : Bytes)
  | expire
  | timerHandler
  | cancel (s : Status)
  | read
  | addMetadata (trailing : Bool) (key value : Bytes)
  | handlerReturn (r : HandlerResult)
  | close
  | poll (len : Nat)
  deriving DecidableEq, Repr

namespace ClientStreamingCall

/-- A call before `Start`. -/
def new (c : ClientStreamingCallState) : ClientStreamingCall :=
  ⟨c, false, false, false, none, false, []⟩

/-- The call after a member function that may send a reply. -/
def after (u : ClientStreamingCall) (r : ClientStreamingCallState × Option Reply) :
    ClientStreamingCall :=
  { u with
    call := r.1
    body := (r.2.map Reply.body).getD u.body
    trace := u.trace ++ replyEffects r.2 }

/-- One event. -/
def step (z : Zlib) (u : ClientStreamingCall) :
    ClientStreamingEvent → Option ClientStreamingCall
  | .start req =>
      if u.started then none
      else
        let r := u.call.start z req
        some ({ u with started := true, registered := r.2.2, running := r.2.2 }.after
          (r.1, r.2.1))
  | .data chunk => if u.registered then some (u.after (u.call.onData z chunk)) else none
  | .expire => u.call.timer.expire.map fun t => { u with call := { u.call with timer := t } }
  | .timerHandler =>
      u.call.timer.fire.map fun t => u.after ({ u.call with timer := t }.onDeadline z)
  | .cancel s => some (u.after (u.call.cancel z s))
  | .read =>
      if u.running && u.call.readerImpl.queue.canPop then
        some { u with call := { u.call with readerImpl := u.call.readerImpl.read.1 } }
      else none
  | .addMetadata trailing key value =>
      if u.running then
        some { u with
          call := { u.call with ctx := u.call.ctx.addMetadata trailing key value } }
      else none
  | .handlerReturn r =>
      if u.running then
        some ({ u with running := false, answered := u.answered || !u.call.closed }.after
          (u.call.handlerReturned z r))
      else none
  | .close =>
      if u.started then
        some { u with
          call := u.call.onClose
          trace := u.trace ++ if u.call.closed then [] else [.closed] }
      else none
  | .poll len =>
      match u.body with
      | none => none
      | some b =>
          if u.call.closed then none
          else
            some { u with
              body := some (b.generate len).1
              trace := u.trace ++ (b.generate len).2.2.map .call }

/-- The calls as a machine. -/
def machine (z : Zlib) : Machine ClientStreamingCall ClientStreamingEvent := ⟨step z⟩

/-- What an event does to a call, with what it needs. Invariants are proved over these cases, not
over the branches of `step`. -/
inductive Move (z : Zlib) (u : ClientStreamingCall) :
    ClientStreamingEvent → ClientStreamingCall → Prop
  | start (req : Request) (hnew : u.started = false) :
      Move z u (.start req)
        ({ u with
          started := true
          registered := (u.call.start z req).2.2
          running := (u.call.start z req).2.2 }.after
            ((u.call.start z req).1, (u.call.start z req).2.1))
  | data (chunk : Bytes) (hreg : u.registered = true) :
      Move z u (.data chunk) (u.after (u.call.onData z chunk))
  | expire (t : Timer) (ht : u.call.timer.expire = some t) :
      Move z u .expire { u with call := { u.call with timer := t } }
  | timerHandler (t : Timer) (ht : u.call.timer.fire = some t) :
      Move z u .timerHandler (u.after ({ u.call with timer := t }.onDeadline z))
  | cancel (s : Status) : Move z u (.cancel s) (u.after (u.call.cancel z s))
  | read (hrun : u.running = true) (hpop : u.call.readerImpl.queue.canPop = true) :
      Move z u .read { u with call := { u.call with readerImpl := u.call.readerImpl.read.1 } }
  | addMetadata (trailing : Bool) (key value : Bytes) (hrun : u.running = true) :
      Move z u (.addMetadata trailing key value) { u with
        call := { u.call with ctx := u.call.ctx.addMetadata trailing key value } }
  | handlerReturn (r : HandlerResult) (hrun : u.running = true) :
      Move z u (.handlerReturn r)
        ({ u with running := false, answered := u.answered || !u.call.closed }.after
          (u.call.handlerReturned z r))
  | close (hstart : u.started = true) :
      Move z u .close { u with
        call := u.call.onClose
        trace := u.trace ++ if u.call.closed then [] else [.closed] }
  | poll (len : Nat) (b : ResponseBody) (hbody : u.body = some b) (hopen : u.call.closed = false) :
      Move z u (.poll len) { u with
        body := some (b.generate len).1
        trace := u.trace ++ (b.generate len).2.2.map .call }

/-- **Every step is one of the moves.** -/
theorem step_move {z : Zlib} {u u' : ClientStreamingCall} {e : ClientStreamingEvent}
    (h : step z u e = some u') : Move z u e u' := by
  cases e with
  | start req =>
      simp only [step, Option.ite_none_left_eq_some, Option.some.injEq, Bool.not_eq_true] at h
      obtain ⟨hnew, rfl⟩ := h
      exact .start req hnew
  | data chunk =>
      simp only [step, Option.ite_none_right_eq_some, Option.some.injEq] at h
      obtain ⟨hreg, rfl⟩ := h
      exact .data chunk hreg
  | expire =>
      obtain ⟨t, ht, rfl⟩ := Option.map_eq_some_iff.1 h
      exact .expire t ht
  | timerHandler =>
      obtain ⟨t, ht, rfl⟩ := Option.map_eq_some_iff.1 h
      exact .timerHandler t ht
  | cancel s =>
      cases h
      exact .cancel s
  | read =>
      simp only [step, Option.ite_none_right_eq_some, Option.some.injEq, Bool.and_eq_true] at h
      obtain ⟨⟨hrun, hpop⟩, rfl⟩ := h
      exact .read hrun hpop
  | addMetadata trailing key value =>
      simp only [step, Option.ite_none_right_eq_some, Option.some.injEq] at h
      obtain ⟨hrun, rfl⟩ := h
      exact .addMetadata trailing key value hrun
  | handlerReturn r =>
      simp only [step, Option.ite_none_right_eq_some, Option.some.injEq] at h
      obtain ⟨hrun, rfl⟩ := h
      exact .handlerReturn r hrun
  | close =>
      simp only [step, Option.ite_none_right_eq_some, Option.some.injEq] at h
      obtain ⟨hstart, rfl⟩ := h
      exact .close hstart
  | poll len =>
      simp only [step] at h
      split at h
      · cases h
      · rename_i b hbody
        simp only [Option.ite_none_left_eq_some, Option.some.injEq, Bool.not_eq_true] at h
        obtain ⟨hopen, rfl⟩ := h
        exact .poll len b hbody hopen

end ClientStreamingCall

/-! ## The response of a client-streaming call -/

namespace ClientStreamingCallState

/-- The flags. -/
def flags (c : ClientStreamingCallState) : Bool × Bool := (c.responded, c.closed)

/-- What a member function that may send a reply does to the flags. -/
def Replies (c : ClientStreamingCallState) (r : ClientStreamingCallState × Option Reply) : Prop :=
  Server.Replies c.responded c.closed r.1.flags r.2

theorem replies_none {c c' : ClientStreamingCallState} (hc : c'.closed = c.closed)
    (hr : c'.responded = c.responded) : Replies c (c', none) := ⟨hc, Or.inl ⟨rfl, hr⟩⟩

theorem replies_sendError {z : Zlib} {c c' : ClientStreamingCallState} (s : Status)
    (hc : c'.closed = c.closed) (hr : c'.responded = c.responded) :
    Replies c (c'.sendError z s) := by
  simp only [sendError]
  by_cases h : c'.responded = true
  · rw [if_pos h]
    exact replies_none hc hr
  · rw [if_neg h]
    exact ⟨hc, Or.inr ⟨rfl, by rw [← hr]; simpa using h, rfl⟩⟩

theorem replies_start {z : Zlib} {c : ClientStreamingCallState} (req : Request) :
    Replies c ((c.start z req).1, (c.start z req).2.1) := by
  unfold start
  dsimp only
  split
  · exact replies_sendError _ rfl rfl
  · exact replies_none rfl rfl

theorem replies_onData {z : Zlib} {c : ClientStreamingCallState} (chunk : Bytes) :
    Replies c (c.onData z chunk) := by
  unfold onData
  dsimp only
  split
  · exact replies_none rfl rfl
  · split
    · exact replies_none rfl rfl
    · split
      · exact replies_none rfl rfl
      · exact replies_sendError _ rfl rfl

theorem replies_cancel {z : Zlib} {c : ClientStreamingCallState} (s : Status) :
    Replies c (c.cancel z s) := by
  simp only [cancel]
  split
  · exact replies_none rfl rfl
  · exact replies_sendError _ rfl rfl

/-- A handler that returns finds a response written, or writes one. -/
theorem handlerReturned_reply (z : Zlib) (c : ClientStreamingCallState) (r : HandlerResult) :
    (c.handlerReturned z r).1.closed = c.closed ∧
      (c.handlerReturned z r).1.responded = true ∧
      ∃ reply, (c.handlerReturned z r).2 = if c.responded then none else some reply := by
  simp only [handlerReturned]
  by_cases h : c.responded = true
  · rw [if_pos h]
    exact ⟨rfl, h, errorReply z handlerThrew, (if_pos h).symm⟩
  · simp only [if_neg h, sendResponse]
    split
    · exact ⟨rfl, rfl, _, rfl⟩
    · split <;> exact ⟨rfl, rfl, _, rfl⟩

end ClientStreamingCallState

namespace ClientStreamingCall

/-- The responder of a call. -/
def responder (u : ClientStreamingCall) : Responder :=
  ⟨u.call.responded, u.call.closed, u.answered, u.trace⟩

theorem responder_after {u : ClientStreamingCall} {r : ClientStreamingCallState × Option Reply}
    (h : u.call.Replies r) : ∃ m, (u.after r).responder = u.responder.move m :=
  Replies.move (g := u.responder) h

/-- **Every event of a client-streaming call is a move of its responder.** -/
theorem step_responder {z : Zlib} {u u' : ClientStreamingCall} {e : ClientStreamingEvent}
    (h : step z u e = some u') : ∃ m, u'.responder = u.responder.move m := by
  cases step_move h with
  | start req hnew =>
      exact responder_after (u := { u with
        started := true
        registered := (u.call.start z req).2.2
        running := (u.call.start z req).2.2 }) (ClientStreamingCallState.replies_start req)
  | data chunk hreg => exact responder_after (ClientStreamingCallState.replies_onData chunk)
  | expire t ht => exact ⟨.stay, rfl⟩
  | timerHandler t ht =>
      exact responder_after (ClientStreamingCallState.replies_sendError _ rfl rfl)
  | cancel s => exact responder_after (ClientStreamingCallState.replies_cancel s)
  | read hrun hpop => exact ⟨.stay, rfl⟩
  | addMetadata trailing key value hrun => exact ⟨.stay, rfl⟩
  | handlerReturn r hrun =>
      obtain ⟨hc, hr, reply, hreply⟩ := u.call.handlerReturned_reply z r
      refine ⟨.handlerReturned reply, ?_⟩
      by_cases hresp : u.call.responded = true <;>
        simp [responder, after, Responder.move, Responder.reply, replyEffects, hc, hr, hreply,
          hresp]
  | close hstart =>
      refine ⟨.close, ?_⟩
      by_cases hc : u.call.closed = true
      · simp [responder, Responder.move, Responder.close, ClientStreamingCallState.onClose, hc]
      · by_cases hr : u.call.responded = true <;>
          simp [responder, Responder.move, Responder.close, ClientStreamingCallState.onClose,
            ClientStreamingCallState.setError, hc, hr]
  | poll len b hbody hopen =>
      unfold ResponseBody.generate
      dsimp only
      split
      · exact ⟨.trailer b.trailers, rfl⟩
      · exact ⟨.stay, by simp [responder, Responder.move]⟩

end ClientStreamingCall

end Rpcpio.Server
