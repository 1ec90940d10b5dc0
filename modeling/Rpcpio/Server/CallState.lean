import Rpcpio.Library.Machine
import Rpcpio.Server.Responder

/-!
# The unary server call state

`ServerCallState` collects the single request message, runs the handler when the request is
complete, and answers with a trailers-only error or with one message and trailers. `ServerCall.step`
runs its member functions, the handlers and the deadline timer in any order.
-/

set_option autoImplicit false

namespace Rpcpio.Server

open Rpcpio.Library Rpcpio.Protocol

/-- `ServerCallState`. -/
structure ServerCallState where
  maxRequestSize : Nat
  maxMetadataSize : Nat
  maxResponseSize : Nat
  peerIdentity : Bytes
  decoder : FrameDecoder
  requestEncoding : Option Encoding
  ctx : ServerContext
  timer : Timer
  responded : Bool
  closed : Bool
  deriving DecidableEq, Repr

namespace ServerCallState

/-- The constructor. -/
def new (maxRequestSize maxMetadataSize maxResponseSize : Nat) (peerIdentity : Bytes) :
    ServerCallState where
  maxRequestSize := maxRequestSize
  maxMetadataSize := maxMetadataSize
  maxResponseSize := maxResponseSize
  peerIdentity := peerIdentity
  decoder := FrameDecoder.new maxRequestSize
  requestEncoding := none
  ctx := ServerContext.new
  timer := .idle
  responded := false
  closed := false

/-- `SendError`: the state, and the reply that it sends. -/
def sendError (z : Zlib) (c : ServerCallState) (s : Status) : ServerCallState × Option Reply :=
  if c.responded then (c, none)
  else ({ c with responded := true, timer := c.timer.cancel }, some (errorReply z s))

/-- The reply of `SendResponse`. -/
def responseReply (z : Zlib) (c : ServerCallState) (s : Status) (respBytes : Bytes) : Reply :=
  if !s.isOk then
    ⟨buildTrailers s c.ctx.trailingMetadata
      (metadataToNghttp2Headers c.ctx.initialMetadata (addCommonHeaders z [])), none⟩
  else if c.maxResponseSize < respBytes.length then errorReply z responseTooLarge
  else
    ⟨metadataToNghttp2Headers c.ctx.initialMetadata (addCommonHeaders z []),
      some ⟨(encodeFrame 0 respBytes).getD [], 0, buildTrailers s c.ctx.trailingMetadata []⟩⟩

/-- `SendResponse`. -/
def sendResponse (z : Zlib) (c : ServerCallState) (s : Status) (respBytes : Bytes) :
    ServerCallState × Option Reply :=
  if c.responded then (c, none)
  else ({ c with responded := true }, some (c.responseReply z s respBytes))

/-- The encoding of the request: an error for an unsupported one. -/
def parseRequestEncoding (z : Zlib) (c : ServerCallState) (req : Request) :
    Except Status (Option Encoding) :=
  match Multimap.find (text "grpc-encoding") req.header with
  | none => .ok c.requestEncoding
  | some v =>
      if v.value = text "identity" then .ok c.requestEncoding
      else
        match parseEncoding z v.value with
        | none =>
            .error (Status.of .unimplemented (text "unsupported grpc-encoding: " ++ v.value))
        | some enc => .ok (some enc)

/-- `Start`: the state, the reply, and whether `on_data` is registered. -/
def start (z : Zlib) (c : ServerCallState) (req : Request) :
    ServerCallState × Option Reply × Bool :=
  let metadata := nghttp2HeadersToMetadata req.header [] c.maxMetadataSize
  if !metadata.1.isOk then
    ((c.sendError z metadata.1).1, (c.sendError z metadata.1).2, false)
  else
    let c := { c with ctx := { c.ctx with clientMetadata := metadata.2 } }
    match c.parseRequestEncoding z req with
    | .error s => ((c.sendError z s).1, (c.sendError z s).2, false)
    | .ok enc =>
        let d := armDeadline req (c.ctx.setPeer req c.peerIdentity) c.timer
        ({ c with requestEncoding := enc, ctx := d.1, timer := d.2 }, none, true)

/-- `OnRequestEnd`: the state, the reply, and the request of the handler that it spawns. -/
def onRequestEnd (z : Zlib) (c : ServerCallState) :
    ServerCallState × Option Reply × Option Bytes :=
  let error (s : Status) := ((c.sendError z s).1, (c.sendError z s).2, (none : Option Bytes))
  if c.responded then (c, none, none)
  else if c.decoder.isError then error (requestFramingError c.decoder)
  else if !c.decoder.isDone then
    error (Status.of .invalidArgument (text "incomplete request message"))
  else if (c.requestEncoding.any fun enc => enc ≠ .identity) && c.decoder.compressFlag ≠ 0 then
    match decompress z (c.requestEncoding.getD .identity) c.decoder.payload c.maxRequestSize with
    | none => error (Status.of .internal (text "request decompression failed"))
    | some reqBytes => (c, none, some reqBytes)
  else ({ c with decoder := c.decoder.takePayload.2 }, none, some c.decoder.takePayload.1)

/-- `OnData`; an empty chunk is the end of the request. -/
def onData (z : Zlib) (c : ServerCallState) (chunk : Bytes) :
    ServerCallState × Option Reply × Option Bytes :=
  if c.responded then (c, none, none)
  else if chunk.isEmpty then { c with decoder := c.decoder.markEos }.onRequestEnd z
  else
    let c := { c with decoder := c.decoder.feed chunk }
    if c.decoder.isError then
      ((c.sendError z (requestFramingError c.decoder)).1,
        (c.sendError z (requestFramingError c.decoder)).2, none)
    else (c, none, none)

/-- The timer's completion handler, when it is not aborted. -/
def onDeadline (z : Zlib) (c : ServerCallState) : ServerCallState × Option Reply :=
  { c with ctx := c.ctx.triggerCancel }.sendError z deadlineExceeded

/-- The closure dispatched by `Cancel`. -/
def cancel (z : Zlib) (c : ServerCallState) (s : Status) : ServerCallState × Option Reply :=
  if c.closed || c.responded then (c, none)
  else { c with ctx := c.ctx.triggerCancel }.sendError z s

/-- `OnClose`. -/
def onClose (c : ServerCallState) : ServerCallState :=
  if c.closed then c
  else
    let c := { c with closed := true, timer := c.timer.cancel }
    if c.responded then c else { c with ctx := c.ctx.triggerCancel, responded := true }

/-- The end of the handler's coroutine. -/
def handlerReturned (z : Zlib) (c : ServerCallState) (r : HandlerResult) :
    ServerCallState × Option Reply :=
  if c.responded then (c, none)
  else { c with timer := c.timer.cancel }.sendResponse z (handlerStatus r.status) r.respBytes

end ServerCallState

/-- A unary server call: the call state, the running handlers with their requests, the body that the
session drains, and the trace. -/
structure ServerCall where
  call : ServerCallState
  started : Bool
  registered : Bool
  handlers : List Bytes
  body : Option ResponseBody
  answered : Bool
  trace : List ResponseEffect
  deriving DecidableEq, Repr

/-- What can happen to a server call with one response message. -/
inductive ServerCallEvent where
  | start (req : Request)
  | data (chunk : Bytes)
  | expire
  | timerHandler
  | cancel (s : Status)
  | addMetadata (trailing : Bool) (key value : Bytes)
  | handlerReturn (i : Nat) (r : HandlerResult)
  | close
  | poll (len : Nat)
  deriving DecidableEq, Repr

namespace ServerCall

/-- A call before `Start`. -/
def new (c : ServerCallState) : ServerCall := ⟨c, false, false, [], none, false, []⟩

/-- The call after a member function that may send a reply. -/
def after (u : ServerCall) (r : ServerCallState × Option Reply) : ServerCall :=
  { u with
    call := r.1
    body := (r.2.map Reply.body).getD u.body
    trace := u.trace ++ replyEffects r.2 }

/-- One event. -/
def step (z : Zlib) (u : ServerCall) : ServerCallEvent → Option ServerCall
  | .start req =>
      if u.started then none
      else
        let r := u.call.start z req
        some ({ u with started := true, registered := r.2.2 }.after (r.1, r.2.1))
  | .data chunk =>
      if u.registered then
        let r := u.call.onData z chunk
        some ({ u with handlers := u.handlers ++ r.2.2.toList }.after (r.1, r.2.1))
      else none
  | .expire => u.call.timer.expire.map fun t => { u with call := { u.call with timer := t } }
  | .timerHandler =>
      u.call.timer.fire.map fun t => u.after ({ u.call with timer := t }.onDeadline z)
  | .cancel s => some (u.after (u.call.cancel z s))
  | .addMetadata trailing key value =>
      if u.handlers.isEmpty then none
      else
        some { u with
          call := { u.call with ctx := u.call.ctx.addMetadata trailing key value } }
  | .handlerReturn i r =>
      u.handlers[i]?.map fun _ =>
        { u with
          handlers := u.handlers.eraseIdx i
          answered := u.answered || !u.call.closed }.after (u.call.handlerReturned z r)
  | .close =>
      if u.started then
        some { u with
          call := u.call.onClose
          trace := u.trace ++ if u.call.closed then [] else [.closed] }
      else none
  | .poll len =>
      match u.body with
      | none => none
      | some b =>
          if u.call.closed then none
          else
            some { u with
              body := some (b.generate len).1
              trace := u.trace ++ (b.generate len).2.2.map .call }

/-- The calls as a machine. -/
def machine (z : Zlib) : Machine ServerCall ServerCallEvent := ⟨step z⟩

/-- What an event does to a call, with what it needs. Invariants are proved over these cases, not
over the branches of `step`. -/
inductive Move (z : Zlib) (u : ServerCall) : ServerCallEvent → ServerCall → Prop
  | start (req : Request) (hnew : u.started = false) :
      Move z u (.start req)
        ({ u with started := true, registered := (u.call.start z req).2.2 }.after
          ((u.call.start z req).1, (u.call.start z req).2.1))
  | data (chunk : Bytes) (hreg : u.registered = true) :
      Move z u (.data chunk)
        ({ u with handlers := u.handlers ++ (u.call.onData z chunk).2.2.toList }.after
          ((u.call.onData z chunk).1, (u.call.onData z chunk).2.1))
  | expire (t : Timer) (ht : u.call.timer.expire = some t) :
      Move z u .expire { u with call := { u.call with timer := t } }
  | timerHandler (t : Timer) (ht : u.call.timer.fire = some t) :
      Move z u .timerHandler (u.after ({ u.call with timer := t }.onDeadline z))
  | cancel (s : Status) : Move z u (.cancel s) (u.after (u.call.cancel z s))
  | addMetadata (trailing : Bool) (key value : Bytes) (hrun : u.handlers.isEmpty = false) :
      Move z u (.addMetadata trailing key value) { u with
        call := { u.call with ctx := u.call.ctx.addMetadata trailing key value } }
  | handlerReturn (i : Nat) (r : HandlerResult) (req : Bytes) (hi : u.handlers[i]? = some req) :
      Move z u (.handlerReturn i r)
        ({ u with
          handlers := u.handlers.eraseIdx i
          answered := u.answered || !u.call.closed }.after (u.call.handlerReturned z r))
  | close (hstart : u.started = true) :
      Move z u .close { u with
        call := u.call.onClose
        trace := u.trace ++ if u.call.closed then [] else [.closed] }
  | poll (len : Nat) (b : ResponseBody) (hbody : u.body = some b) (hopen : u.call.closed = false) :
      Move z u (.poll len) { u with
        body := some (b.generate len).1
        trace := u.trace ++ (b.generate len).2.2.map .call }

/-- **Every step is one of the moves.** -/
theorem step_move {z : Zlib} {u u' : ServerCall} {e : ServerCallEvent} (h : step z u e = some u') :
    Move z u e u' := by
  cases e with
  | start req =>
      simp only [step, Option.ite_none_left_eq_some, Option.some.injEq, Bool.not_eq_true] at h
      obtain ⟨hnew, rfl⟩ := h
      exact .start req hnew
  | data chunk =>
      simp only [step, Option.ite_none_right_eq_some, Option.some.injEq] at h
      obtain ⟨hreg, rfl⟩ := h
      exact .data chunk hreg
  | expire =>
      obtain ⟨t, ht, rfl⟩ := Option.map_eq_some_iff.1 h
      exact .expire t ht
  | timerHandler =>
      obtain ⟨t, ht, rfl⟩ := Option.map_eq_some_iff.1 h
      exact .timerHandler t ht
  | cancel s =>
      cases h
      exact .cancel s
  | addMetadata trailing key value =>
      simp only [step, Option.ite_none_left_eq_some, Option.some.injEq, Bool.not_eq_true] at h
      obtain ⟨hrun, rfl⟩ := h
      exact .addMetadata trailing key value hrun
  | handlerReturn i r =>
      obtain ⟨req, hi, rfl⟩ := Option.map_eq_some_iff.1 h
      exact .handlerReturn i r req hi
  | close =>
      simp only [step, Option.ite_none_right_eq_some, Option.some.injEq] at h
      obtain ⟨hstart, rfl⟩ := h
      exact .close hstart
  | poll len =>
      simp only [step] at h
      split at h
      · cases h
      · rename_i b hbody
        simp only [Option.ite_none_left_eq_some, Option.some.injEq, Bool.not_eq_true] at h
        obtain ⟨hopen, rfl⟩ := h
        exact .poll len b hbody hopen

end ServerCall

/-! ## The response of a unary call -/

namespace ServerCallState

/-- The flags. -/
def flags (c : ServerCallState) : Bool × Bool := (c.responded, c.closed)

/-- What a member function that may send a reply does to the flags. -/
def Replies (c : ServerCallState) (r : ServerCallState × Option Reply) : Prop :=
  Server.Replies c.responded c.closed r.1.flags r.2

theorem replies_none {c c' : ServerCallState} (hc : c'.closed = c.closed)
    (hr : c'.responded = c.responded) : Replies c (c', none) := ⟨hc, Or.inl ⟨rfl, hr⟩⟩

theorem replies_sendError {z : Zlib} {c c' : ServerCallState} (s : Status)
    (hc : c'.closed = c.closed) (hr : c'.responded = c.responded) :
    Replies c (c'.sendError z s) := by
  simp only [sendError]
  by_cases h : c'.responded = true
  · rw [if_pos h]
    exact replies_none hc hr
  · rw [if_neg h]
    exact ⟨hc, Or.inr ⟨rfl, by rw [← hr]; simpa using h, rfl⟩⟩

theorem replies_start {z : Zlib} {c : ServerCallState} (req : Request) :
    Replies c ((c.start z req).1, (c.start z req).2.1) := by
  unfold start
  dsimp only
  split
  · exact replies_sendError _ rfl rfl
  · split
    · exact replies_sendError _ rfl rfl
    · exact replies_none rfl rfl

theorem replies_onRequestEnd {z : Zlib} {c c' : ServerCallState} (hc : c'.closed = c.closed)
    (hr : c'.responded = c.responded) :
    Replies c ((c'.onRequestEnd z).1, (c'.onRequestEnd z).2.1) := by
  unfold onRequestEnd
  dsimp only
  split
  · exact replies_none hc hr
  · split
    · exact replies_sendError _ hc hr
    · split
      · exact replies_sendError _ hc hr
      · split
        · split
          · exact replies_sendError _ hc hr
          · exact replies_none hc hr
        · exact replies_none hc hr

theorem replies_onData {z : Zlib} {c : ServerCallState} (chunk : Bytes) :
    Replies c ((c.onData z chunk).1, (c.onData z chunk).2.1) := by
  unfold onData
  split
  · exact replies_none rfl rfl
  · split
    · exact replies_onRequestEnd rfl rfl
    · dsimp only
      split
      · exact replies_sendError _ rfl rfl
      · exact replies_none rfl rfl

theorem replies_cancel {z : Zlib} {c : ServerCallState} (s : Status) :
    Replies c (c.cancel z s) := by
  simp only [cancel]
  split
  · exact replies_none rfl rfl
  · exact replies_sendError _ rfl rfl

/-- A handler that returns finds a response written, or writes one. -/
theorem handlerReturned_reply (z : Zlib) (c : ServerCallState) (r : HandlerResult) :
    (c.handlerReturned z r).1.closed = c.closed ∧
      (c.handlerReturned z r).1.responded = true ∧
      (c.handlerReturned z r).2 =
        if c.responded then none
        else some (c.responseReply z (handlerStatus r.status) r.respBytes) := by
  simp only [handlerReturned]
  by_cases h : c.responded = true
  · simp [h]
  · simp only [if_neg h, sendResponse]
    exact ⟨trivial, trivial, rfl⟩

end ServerCallState

namespace ServerCall

/-- The responder of a call. -/
def responder (u : ServerCall) : Responder :=
  ⟨u.call.responded, u.call.closed, u.answered, u.trace⟩

theorem responder_after {u : ServerCall} {r : ServerCallState × Option Reply}
    (h : u.call.Replies r) : ∃ m, (u.after r).responder = u.responder.move m :=
  Replies.move (g := u.responder) h

/-- **Every event of a unary call is a move of its responder.** -/
theorem step_responder {z : Zlib} {u u' : ServerCall} {e : ServerCallEvent}
    (h : step z u e = some u') : ∃ m, u'.responder = u.responder.move m := by
  cases step_move h with
  | start req hnew =>
      exact responder_after
        (u := { u with started := true, registered := (u.call.start z req).2.2 })
        (ServerCallState.replies_start req)
  | data chunk hreg =>
      exact responder_after
        (u := { u with handlers := u.handlers ++ (u.call.onData z chunk).2.2.toList })
        (ServerCallState.replies_onData chunk)
  | expire t ht => exact ⟨.stay, rfl⟩
  | timerHandler t ht => exact responder_after (ServerCallState.replies_sendError _ rfl rfl)
  | cancel s => exact responder_after (ServerCallState.replies_cancel s)
  | addMetadata trailing key value hrun => exact ⟨.stay, rfl⟩
  | handlerReturn i r req hi =>
      refine ⟨.handlerReturned (u.call.responseReply z (handlerStatus r.status) r.respBytes), ?_⟩
      obtain ⟨hc, hr, hreply⟩ := u.call.handlerReturned_reply z r
      by_cases hresp : u.call.responded = true <;>
        simp [responder, after, Responder.move, Responder.reply, replyEffects, hc, hr, hreply,
          hresp]
  | close hstart =>
      refine ⟨.close, ?_⟩
      by_cases hc : u.call.closed = true
      · simp [responder, Responder.move, Responder.close, ServerCallState.onClose, hc]
      · by_cases hr : u.call.responded = true <;>
          simp [responder, Responder.move, Responder.close, ServerCallState.onClose, hc, hr]
  | poll len b hbody hopen =>
      unfold ResponseBody.generate
      dsimp only
      split
      · exact ⟨.trailer b.trailers, rfl⟩
      · exact ⟨.stay, by simp [responder, Responder.move]⟩

end ServerCall

end Rpcpio.Server
