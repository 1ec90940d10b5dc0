import Rpcpio.Server.ServerImpl

/-!
# The header blocks that call states write

Whatever happens to a call, `write_head` is called with status 200 and with a block that starts from
`AddCommonHeaders` (`HeadBlock`): the initial metadata alone, or with a status behind it. One lemma
for each member function carries this through the runs of the four kinds of calls.
-/

set_option autoImplicit false

namespace Rpcpio.Server

open Rpcpio.Library Rpcpio.Protocol

/-- The blocks that call states write: the head of a response with a body, and the trailers-only
block of a status. -/
inductive HeadBlock (z : Zlib) : HeaderMap → Prop
  | body (initial : MetadataMap) :
      HeadBlock z (metadataToNghttp2Headers initial (addCommonHeaders z []))
  | status (s : Status) (initial trailing : MetadataMap) :
      HeadBlock z (buildTrailers s trailing
        (metadataToNghttp2Headers initial (addCommonHeaders z [])))

theorem headBlock_errorReply (z : Zlib) (s : Status) : HeadBlock z (errorReply z s).head :=
  .status s [] []

theorem headBlock_streamHead (z : Zlib) (ctx : ServerContext) : HeadBlock z (streamHead z ctx) :=
  .body ctx.initialMetadata

/-- Every `write_head` among the calls has status 200 and such a block. -/
def CallsHeaded (z : Zlib) (calls : List ResponseCall) : Prop :=
  ∀ code headers, ResponseCall.writeHead code headers ∈ calls → code = 200 ∧ HeadBlock z headers

/-- The same in a trace. -/
def Headed (z : Zlib) (tr : List ResponseEffect) : Prop :=
  ∀ code headers, ResponseEffect.call (.writeHead code headers) ∈ tr →
    code = 200 ∧ HeadBlock z headers

/-- The reply that a member function sends, if any, has such a block. -/
def ReplyHeaded (z : Zlib) (o : Option Reply) : Prop := ∀ r, o = some r → HeadBlock z r.head

section

variable {z : Zlib}

theorem callsHeaded_nil : CallsHeaded z [] := fun _ _ h => by cases h

theorem callsHeaded_append {cs ds : List ResponseCall} (hc : CallsHeaded z cs)
    (hd : CallsHeaded z ds) : CallsHeaded z (cs ++ ds) := by
  intro code headers h
  rcases List.mem_append.1 h with h | h
  · exact hc code headers h
  · exact hd code headers h

theorem callsHeaded_reply {r : Reply} (h : HeadBlock z r.head) : CallsHeaded z r.calls := by
  intro code headers hmem
  rcases List.mem_cons.1 hmem with hmem | hmem
  · cases hmem
    exact ⟨rfl, h⟩
  · have hend := List.mem_singleton.1 hmem
    split at hend <;> cases hend

theorem callsHeaded_of_not_head {cs : List ResponseCall}
    (h : ∀ code headers, ResponseCall.writeHead code headers ∉ cs) : CallsHeaded z cs :=
  fun code headers hmem => absurd hmem (h code headers)

theorem headed_nil : Headed z [] := fun _ _ h => by cases h

theorem headed_append {tr es : List ResponseEffect} (ht : Headed z tr) (he : Headed z es) :
    Headed z (tr ++ es) := by
  intro code headers h
  rcases List.mem_append.1 h with h | h
  · exact ht code headers h
  · exact he code headers h

theorem headed_calls {cs : List ResponseCall} (h : CallsHeaded z cs) :
    Headed z (cs.map .call) := by
  intro code headers hmem
  obtain ⟨c, hc, heq⟩ := List.mem_map.1 hmem
  cases heq
  exact h code headers hc

theorem headed_closed : Headed z [.closed] := by
  intro code headers h
  cases List.mem_singleton.1 h

theorem headed_replyEffects {o : Option Reply} (h : ReplyHeaded z o) :
    Headed z (replyEffects o) := by
  cases o with
  | none => exact headed_nil
  | some r => exact headed_calls (callsHeaded_reply (h r rfl))

theorem replyHeaded_none : ReplyHeaded z none := fun _ h => by cases h

theorem replyHeaded_some {r : Reply} (h : HeadBlock z r.head) : ReplyHeaded z (some r) := by
  intro r' hr
  cases hr
  exact h

/-! ## Unary calls -/

namespace ServerCallState

theorem replyHeaded_sendError (c : ServerCallState) (s : Status) :
    ReplyHeaded z (c.sendError z s).2 := by
  simp only [sendError]
  split
  · exact replyHeaded_none
  · exact replyHeaded_some (headBlock_errorReply z s)

theorem replyHeaded_sendResponse (c : ServerCallState) (s : Status) (respBytes : Bytes) :
    ReplyHeaded z (c.sendResponse z s respBytes).2 := by
  simp only [sendResponse]
  split
  · exact replyHeaded_none
  · apply replyHeaded_some
    simp only [responseReply]
    split
    · exact .status s _ _
    · split
      · exact headBlock_errorReply z _
      · exact .body _

theorem replyHeaded_start (c : ServerCallState) (req : Request) :
    ReplyHeaded z (c.start z req).2.1 := by
  unfold start
  dsimp only
  split
  · exact replyHeaded_sendError _ _
  · split
    · exact replyHeaded_sendError _ _
    · exact replyHeaded_none

theorem replyHeaded_onRequestEnd (c : ServerCallState) : ReplyHeaded z (c.onRequestEnd z).2.1 := by
  unfold onRequestEnd
  dsimp only
  split
  · exact replyHeaded_none
  split
  · exact replyHeaded_sendError _ _
  split
  · exact replyHeaded_sendError _ _
  split
  · split
    · exact replyHeaded_sendError _ _
    · exact replyHeaded_none
  · exact replyHeaded_none

theorem replyHeaded_onData (c : ServerCallState) (chunk : Bytes) :
    ReplyHeaded z (c.onData z chunk).2.1 := by
  unfold onData
  dsimp only
  split
  · exact replyHeaded_none
  split
  · exact replyHeaded_onRequestEnd _
  split
  · exact replyHeaded_sendError _ _
  · exact replyHeaded_none

theorem replyHeaded_cancel (c : ServerCallState) (s : Status) :
    ReplyHeaded z (c.cancel z s).2 := by
  simp only [cancel]
  split
  · exact replyHeaded_none
  · exact replyHeaded_sendError _ _

theorem replyHeaded_handlerReturned (c : ServerCallState) (r : HandlerResult) :
    ReplyHeaded z (c.handlerReturned z r).2 := by
  simp only [handlerReturned]
  split
  · exact replyHeaded_none
  · exact replyHeaded_sendResponse _ _ _

end ServerCallState

/-- The body of a response with one message writes no header block. -/
theorem headed_generate (b : ResponseBody) (len : Nat) :
    Headed z ((b.generate len).2.2.map .call) := by
  apply headed_calls
  apply callsHeaded_of_not_head
  intro code headers hmem
  unfold ResponseBody.generate at hmem
  dsimp only at hmem
  split at hmem
  · cases List.mem_singleton.1 hmem
  · cases hmem

theorem ServerCall.headed_step {u u' : ServerCall} {e : ServerCallEvent} (hu : Headed z u.trace)
    (h : u.step z e = some u') : Headed z u'.trace := by
  cases step_move h with
  | start req hnew => exact headed_append hu (headed_replyEffects (u.call.replyHeaded_start req))
  | data chunk hreg =>
      exact headed_append hu (headed_replyEffects (u.call.replyHeaded_onData chunk))
  | expire t ht => exact hu
  | timerHandler t ht =>
      exact headed_append hu (headed_replyEffects (ServerCallState.replyHeaded_sendError _ _))
  | cancel s => exact headed_append hu (headed_replyEffects (u.call.replyHeaded_cancel s))
  | addMetadata trailing key value hrun => exact hu
  | handlerReturn i r req hi =>
      exact headed_append hu (headed_replyEffects (u.call.replyHeaded_handlerReturned r))
  | close hstart =>
      apply headed_append hu
      split
      · exact headed_nil
      · exact headed_closed
  | poll len b hbody hopen => exact headed_append hu (headed_generate _ len)

/-! ## Client-streaming calls -/

namespace ClientStreamingCallState

theorem replyHeaded_sendError (c : ClientStreamingCallState) (s : Status) :
    ReplyHeaded z (c.sendError z s).2 := by
  simp only [sendError]
  split
  · exact replyHeaded_none
  · exact replyHeaded_some (headBlock_errorReply z s)

theorem replyHeaded_sendResponse (c : ClientStreamingCallState) (s : Status) (respBytes : Bytes) :
    ReplyHeaded z (c.sendResponse z s respBytes).2 := by
  unfold sendResponse
  dsimp only
  split
  · exact replyHeaded_none
  split
  · exact replyHeaded_some (headBlock_errorReply z _)
  split
  · exact replyHeaded_some (.status s _ _)
  · exact replyHeaded_some (.body _)

theorem replyHeaded_start (c : ClientStreamingCallState) (req : Request) :
    ReplyHeaded z (c.start z req).2.1 := by
  unfold start
  dsimp only
  split
  · exact replyHeaded_sendError _ _
  · exact replyHeaded_none

theorem replyHeaded_onData (c : ClientStreamingCallState) (chunk : Bytes) :
    ReplyHeaded z (c.onData z chunk).2 := by
  unfold onData
  dsimp only
  split
  · exact replyHeaded_none
  split
  · exact replyHeaded_none
  split
  · exact replyHeaded_none
  · exact replyHeaded_sendError _ _

theorem replyHeaded_cancel (c : ClientStreamingCallState) (s : Status) :
    ReplyHeaded z (c.cancel z s).2 := by
  simp only [cancel]
  split
  · exact replyHeaded_none
  · exact replyHeaded_sendError _ _

theorem replyHeaded_handlerReturned (c : ClientStreamingCallState) (r : HandlerResult) :
    ReplyHeaded z (c.handlerReturned z r).2 := by
  simp only [handlerReturned]
  split
  · exact replyHeaded_none
  · exact replyHeaded_sendResponse _ _ _

end ClientStreamingCallState

theorem ClientStreamingCall.headed_step {u u' : ClientStreamingCall} {e : ClientStreamingEvent}
    (hu : Headed z u.trace) (h : u.step z e = some u') : Headed z u'.trace := by
  cases step_move h with
  | start req hnew => exact headed_append hu (headed_replyEffects (u.call.replyHeaded_start req))
  | data chunk hreg =>
      exact headed_append hu (headed_replyEffects (u.call.replyHeaded_onData chunk))
  | expire t ht => exact hu
  | timerHandler t ht =>
      exact headed_append hu
        (headed_replyEffects (ClientStreamingCallState.replyHeaded_sendError _ _))
  | cancel s => exact headed_append hu (headed_replyEffects (u.call.replyHeaded_cancel s))
  | read hrun hpop => exact hu
  | addMetadata trailing key value hrun => exact hu
  | handlerReturn r hrun =>
      exact headed_append hu (headed_replyEffects (u.call.replyHeaded_handlerReturned r))
  | close hstart =>
      apply headed_append hu
      split
      · exact headed_nil
      · exact headed_closed
  | poll len b hbody hopen => exact headed_append hu (headed_generate _ len)

/-! ## The writer of a streaming response -/

namespace RawServerWriterImpl

/-- `Finish` only wakes the generator. -/
theorem callsHeaded_finish (w : RawServerWriterImpl) (s : Status) :
    CallsHeaded z (w.finish s).2 := by
  apply callsHeaded_of_not_head
  intro code headers hmem
  unfold finish at hmem
  split at hmem
  · cases hmem
  · cases List.mem_singleton.1 hmem

theorem callsHeaded_perform (w : RawServerWriterImpl) (c : WriterCall) :
    CallsHeaded z (w.perform c).2 := by
  cases c with
  | finish s => exact w.callsHeaded_finish s
  | write payload =>
      unfold perform write
      dsimp only
      split
      · exact callsHeaded_nil
      split
      · exact w.callsHeaded_finish _
      split
      · exact callsHeaded_nil
      · apply callsHeaded_of_not_head
        intro code headers hmem
        cases List.mem_singleton.1 hmem

theorem callsHeaded_performAll (cs : List WriterCall) (w : RawServerWriterImpl) :
    CallsHeaded z (w.performAll cs).2 := by
  induction cs generalizing w with
  | nil => exact callsHeaded_nil
  | cons c cs ih => exact callsHeaded_append (w.callsHeaded_perform c) (ih _)

theorem callsHeaded_generate (w : RawServerWriterImpl) (len : Nat) :
    CallsHeaded z (w.generate len).2.2 := by
  apply callsHeaded_of_not_head
  intro code headers hmem
  unfold generate at hmem
  split at hmem
  · split at hmem
    · cases List.mem_singleton.1 hmem
    · cases hmem
  · dsimp only at hmem
    split at hmem <;> cases hmem

end RawServerWriterImpl

/-- The calls of `SendHeaders`. -/
theorem callsHeaded_sendHeaders (ctx : ServerContext) :
    CallsHeaded z [.writeHead 200 (streamHead z ctx), .endWith] := by
  intro code headers hmem
  rcases List.mem_cons.1 hmem with hmem | hmem
  · cases hmem
    exact ⟨rfl, headBlock_streamHead z ctx⟩
  · cases List.mem_singleton.1 hmem

/-! ## Server-streaming calls -/

namespace ServerStreamingCallState

theorem callsHeaded_sendError (c : ServerStreamingCallState) (s : Status) :
    CallsHeaded z (c.sendError z s).2 := by
  simp only [sendError]
  split
  · exact callsHeaded_nil
  · exact callsHeaded_reply (headBlock_errorReply z s)

theorem callsHeaded_start (c : ServerStreamingCallState) (req : Request) :
    CallsHeaded z (c.start z req).2.1 := by
  unfold start
  dsimp only
  split
  · exact callsHeaded_sendError _ _
  · exact callsHeaded_nil

theorem callsHeaded_onRequestEnd (c : ServerStreamingCallState) :
    CallsHeaded z (c.onRequestEnd z).2.1 := by
  unfold onRequestEnd
  dsimp only
  split
  · exact callsHeaded_nil
  split
  · exact callsHeaded_sendError _ _
  split
  · exact callsHeaded_sendError _ _
  · exact callsHeaded_sendHeaders _

theorem callsHeaded_onData (c : ServerStreamingCallState) (chunk : Bytes) :
    CallsHeaded z (c.onData z chunk).2.1 := by
  unfold onData
  dsimp only
  split
  · exact callsHeaded_nil
  split
  · exact callsHeaded_onRequestEnd _
  split
  · exact callsHeaded_sendError _ _
  · exact callsHeaded_nil

theorem callsHeaded_cancel (c : ServerStreamingCallState) (s : Status) (slot : List WriterCall) :
    CallsHeaded z (c.cancel z s slot).2 := by
  simp only [cancel]
  split
  · exact callsHeaded_nil
  · apply callsHeaded_append
    · exact RawServerWriterImpl.callsHeaded_performAll slot _
    · split
      · exact RawServerWriterImpl.callsHeaded_perform _ _
      · exact callsHeaded_sendError _ _

theorem callsHeaded_onClose (c : ServerStreamingCallState) (slot : List WriterCall) :
    CallsHeaded z (c.onClose slot).2 := by
  unfold onClose
  dsimp only
  split
  · exact callsHeaded_nil
  split
  · exact callsHeaded_nil
  · exact RawServerWriterImpl.callsHeaded_performAll slot _

theorem callsHeaded_handlerReturned (c : ServerStreamingCallState) (status : Option Status) :
    CallsHeaded z (c.handlerReturned status).2 := by
  simp only [handlerReturned]
  split
  · exact callsHeaded_nil
  · exact RawServerWriterImpl.callsHeaded_perform _ _

end ServerStreamingCallState

theorem ServerStreamingCall.headed_step {u u' : ServerStreamingCall} {e : ServerStreamingEvent}
    (hu : Headed z u.trace) (h : u.step z e = some u') : Headed z u'.trace := by
  cases step_move h with
  | start req hnew => exact headed_append hu (headed_calls (u.call.callsHeaded_start req))
  | data chunk hreg => exact headed_append hu (headed_calls (u.call.callsHeaded_onData chunk))
  | expire t ht => exact hu
  | timerHandler slot t ht =>
      refine headed_append hu (headed_calls (callsHeaded_append ?_ ?_))
      · exact RawServerWriterImpl.callsHeaded_performAll _ _
      · exact ServerStreamingCallState.callsHeaded_sendError _ _
  | cancel s slot => exact headed_append hu (headed_calls (u.call.callsHeaded_cancel s _))
  | perform w hspawned =>
      exact headed_append hu (headed_calls (RawServerWriterImpl.callsHeaded_perform _ w))
  | addMetadata trailing key value hspawned => exact hu
  | handlerReturn i status req hi =>
      exact headed_append hu (headed_calls (u.call.callsHeaded_handlerReturned status))
  | closeAgain slot hstart hclosed => exact hu
  | close slot hstart hopen =>
      exact headed_append (headed_append hu (headed_calls (u.call.callsHeaded_onClose _)))
        headed_closed
  | poll len hspawned hopen =>
      exact headed_append hu (headed_calls (RawServerWriterImpl.callsHeaded_generate _ len))

/-! ## Bidirectional calls -/

namespace BidiStreamingCallState

theorem callsHeaded_sendError (c : BidiStreamingCallState) (s : Status) :
    CallsHeaded z (c.sendError z s).2 := by
  simp only [sendError]
  split
  · exact callsHeaded_nil
  · exact callsHeaded_reply (headBlock_errorReply z s)

theorem callsHeaded_finishWriter (c : BidiStreamingCallState) (s : Status) :
    CallsHeaded z (c.finishWriter s).2 := by
  simp only [finishWriter]
  split
  · exact callsHeaded_nil
  · exact RawServerWriterImpl.callsHeaded_finish _ s

theorem callsHeaded_start (c : BidiStreamingCallState) (req : Request) :
    CallsHeaded z (c.start z req).2.1 := by
  unfold start
  dsimp only
  split
  · exact callsHeaded_sendError _ _
  · exact callsHeaded_sendHeaders _

theorem callsHeaded_onData (c : BidiStreamingCallState) (chunk : Bytes) :
    CallsHeaded z (c.onData chunk).2 := by
  unfold onData
  dsimp only
  split
  · exact callsHeaded_nil
  split
  · exact callsHeaded_nil
  · exact callsHeaded_finishWriter _ _

theorem callsHeaded_cancel (c : BidiStreamingCallState) (s : Status) (slot : List WriterCall) :
    CallsHeaded z (c.cancel z s slot).2 := by
  simp only [cancel]
  split
  · exact callsHeaded_nil
  · apply callsHeaded_append
    · exact RawServerWriterImpl.callsHeaded_performAll slot _
    · split
      · exact RawServerWriterImpl.callsHeaded_perform _ _
      · exact callsHeaded_sendError _ _

theorem callsHeaded_onClose (c : BidiStreamingCallState) (slot : List WriterCall) :
    CallsHeaded z (c.onClose slot).2 := by
  unfold onClose
  dsimp only
  split
  · exact callsHeaded_nil
  split
  · exact callsHeaded_nil
  · exact RawServerWriterImpl.callsHeaded_performAll slot _

end BidiStreamingCallState

theorem BidiStreamingCall.headed_step {u u' : BidiStreamingCall} {e : BidiStreamingEvent}
    (hu : Headed z u.trace) (h : u.step z e = some u') : Headed z u'.trace := by
  cases step_move h with
  | start req hnew => exact headed_append hu (headed_calls (u.call.callsHeaded_start req))
  | data chunk hreg => exact headed_append hu (headed_calls (u.call.callsHeaded_onData chunk))
  | expire t ht => exact hu
  | timerHandler slot t ht =>
      refine headed_append hu (headed_calls (callsHeaded_append ?_ ?_))
      · exact RawServerWriterImpl.callsHeaded_performAll _ _
      · exact BidiStreamingCallState.callsHeaded_finishWriter _ _
  | cancel s slot => exact headed_append hu (headed_calls (u.call.callsHeaded_cancel s _))
  | read hreg hpop => exact hu
  | perform w hreg =>
      exact headed_append hu (headed_calls (RawServerWriterImpl.callsHeaded_perform _ w))
  | addMetadata trailing key value hreg => exact hu
  | handlerReturn status hrun =>
      exact headed_append hu
        (headed_calls (BidiStreamingCallState.callsHeaded_finishWriter _ _))
  | closeAgain slot hstart hclosed => exact hu
  | close slot hstart hopen =>
      exact headed_append (headed_append hu (headed_calls (u.call.callsHeaded_onClose _)))
        headed_closed
  | poll len hreg hopen =>
      exact headed_append hu (headed_calls (RawServerWriterImpl.callsHeaded_generate _ len))

end

end Rpcpio.Server
