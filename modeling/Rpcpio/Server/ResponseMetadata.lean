import Rpcpio.Protocol.WireMetadata
import Rpcpio.Server.AnyServerCall
import Rpcpio.Server.ResponseLifetime

/-!
# The metadata of a response

The metadata of a context are those that the handler has added, since the member functions of the
call states leave them (`ServerCall.validated_step`). A streaming response writes its headers before
the handler runs, and `Finish` builds the trailers of the writer from no metadata
(`ServerStreamingCall.streamMetadata_step`).
-/

set_option autoImplicit false

namespace Rpcpio.Server

open Rpcpio.Library Rpcpio.Protocol

/-- The metadata that a handler has added to its context. -/
def ServerContext.Validated (ctx : ServerContext) : Prop :=
  Protocol.Validated ctx.initialMetadata ∧ Protocol.Validated ctx.trailingMetadata

/-- The metadata of the context, initial and trailing. -/
def ServerContext.metadata (ctx : ServerContext) : MetadataMap × MetadataMap :=
  (ctx.initialMetadata, ctx.trailingMetadata)

theorem ServerContext.Validated.congr {ctx ctx' : ServerContext} (h : ctx.Validated)
    (hm : ctx'.metadata = ctx.metadata) : ctx'.Validated := by
  obtain ⟨hi, ht⟩ := Prod.mk.injEq _ _ _ _ ▸ hm
  exact ⟨hi ▸ h.1, ht ▸ h.2⟩

theorem ServerContext.Validated.addMetadata {ctx : ServerContext} (h : ctx.Validated)
    (trailing : Bool) (key value : Bytes) : (ctx.addMetadata trailing key value).Validated := by
  cases trailing with
  | true => exact ⟨h.1, h.2.add key value⟩
  | false => exact ⟨h.1.add key value, h.2⟩

@[simp] theorem armDeadline_metadata (req : Request) (ctx : ServerContext) (timer : Timer) :
    (armDeadline req ctx timer).1.metadata = ctx.metadata := by
  simp only [armDeadline]
  split <;> rfl

theorem ownHeaders_addCommonHeaders (z : Zlib) : OwnHeaders (addCommonHeaders z []) :=
  (ownHeaders_nil.emplace (by decide) _).emplace (by decide) _

theorem ownHeaders_errorReply (z : Zlib) (s : Status) : OwnHeaders (errorReply z s).head :=
  (ownHeaders_addCommonHeaders z).buildTrailers s

/-! ## Unary and client-streaming calls -/

namespace ServerCallState

theorem sendError_ctx (z : Zlib) (c : ServerCallState) (s : Status) :
    (c.sendError z s).1.ctx = c.ctx := by
  simp only [sendError]
  split <;> rfl

theorem start_metadata (z : Zlib) (c : ServerCallState) (req : Request) :
    (c.start z req).1.ctx.metadata = c.ctx.metadata := by
  simp only [start]
  split
  · rw [sendError_ctx]
  split
  · rw [sendError_ctx]
    rfl
  · exact armDeadline_metadata req _ _

theorem onRequestEnd_ctx (z : Zlib) (c : ServerCallState) :
    (c.onRequestEnd z).1.ctx = c.ctx := by
  simp only [onRequestEnd]
  split
  · rfl
  split
  · exact sendError_ctx z c _
  split
  · exact sendError_ctx z c _
  split
  · split
    · exact sendError_ctx z c _
    · rfl
  · rfl

theorem onData_ctx (z : Zlib) (c : ServerCallState) (chunk : Bytes) :
    (c.onData z chunk).1.ctx = c.ctx := by
  simp only [onData]
  split
  · rfl
  split
  · exact onRequestEnd_ctx z { c with decoder := c.decoder.markEos }
  split
  · exact sendError_ctx z _ _
  · rfl

theorem onDeadline_metadata (z : Zlib) (c : ServerCallState) :
    (c.onDeadline z).1.ctx.metadata = c.ctx.metadata := by
  rw [onDeadline, sendError_ctx]
  rfl

theorem cancel_metadata (z : Zlib) (c : ServerCallState) (s : Status) :
    (c.cancel z s).1.ctx.metadata = c.ctx.metadata := by
  simp only [cancel]
  split
  · rfl
  · rw [sendError_ctx]
    rfl

theorem onClose_metadata (c : ServerCallState) : c.onClose.ctx.metadata = c.ctx.metadata := by
  simp only [onClose]
  split
  · rfl
  split <;> rfl

theorem handlerReturned_ctx (z : Zlib) (c : ServerCallState) (r : HandlerResult) :
    (c.handlerReturned z r).1.ctx = c.ctx := by
  simp only [handlerReturned]
  split
  · rfl
  · simp only [sendResponse]
    split <;> rfl

end ServerCallState

/-- **The metadata of a unary call is what the handler added.** -/
theorem ServerCall.validated_step {z : Zlib} {u u' : ServerCall} {e : ServerCallEvent}
    (hu : u.call.ctx.Validated) (h : u.step z e = some u') : u'.call.ctx.Validated := by
  cases step_move h with
  | start req hnew => exact hu.congr (u.call.start_metadata z req)
  | data chunk hreg => exact hu.congr (congrArg ServerContext.metadata (u.call.onData_ctx z chunk))
  | expire t ht => exact hu
  | timerHandler t ht =>
      exact hu.congr (ServerCallState.onDeadline_metadata z { u.call with timer := t })
  | cancel s => exact hu.congr (u.call.cancel_metadata z s)
  | addMetadata trailing key value hrun => exact hu.addMetadata trailing key value
  | handlerReturn i r req hi =>
      exact hu.congr (congrArg ServerContext.metadata (u.call.handlerReturned_ctx z r))
  | close hstart => exact hu.congr u.call.onClose_metadata
  | poll len b hbody hopen => exact hu

namespace ClientStreamingCallState

theorem sendError_ctx (z : Zlib) (c : ClientStreamingCallState) (s : Status) :
    (c.sendError z s).1.ctx = c.ctx := by
  simp only [sendError]
  split <;> rfl

theorem start_metadata (z : Zlib) (c : ClientStreamingCallState) (req : Request) :
    (c.start z req).1.ctx.metadata = c.ctx.metadata := by
  simp only [start]
  split
  · rw [sendError_ctx]
  · exact armDeadline_metadata req _ _

theorem onData_ctx (z : Zlib) (c : ClientStreamingCallState) (chunk : Bytes) :
    (c.onData z chunk).1.ctx = c.ctx := by
  simp only [onData]
  split
  · rfl
  split
  · rfl
  split
  · rfl
  · exact sendError_ctx z _ _

theorem onDeadline_metadata (z : Zlib) (c : ClientStreamingCallState) :
    (c.onDeadline z).1.ctx.metadata = c.ctx.metadata := by
  rw [onDeadline, sendError_ctx]
  rfl

theorem cancel_metadata (z : Zlib) (c : ClientStreamingCallState) (s : Status) :
    (c.cancel z s).1.ctx.metadata = c.ctx.metadata := by
  simp only [cancel]
  split
  · rfl
  · rw [sendError_ctx]
    rfl

theorem onClose_metadata (c : ClientStreamingCallState) :
    c.onClose.ctx.metadata = c.ctx.metadata := by
  simp only [onClose]
  split
  · rfl
  split <;> rfl

theorem handlerReturned_ctx (z : Zlib) (c : ClientStreamingCallState) (r : HandlerResult) :
    (c.handlerReturned z r).1.ctx = c.ctx := by
  simp only [handlerReturned]
  split
  · rfl
  · simp only [sendResponse]
    split
    · rfl
    split
    · rfl
    split <;> rfl

end ClientStreamingCallState

/-- **The metadata of a client-streaming call is what the handler added.** -/
theorem ClientStreamingCall.validated_step {z : Zlib} {u u' : ClientStreamingCall}
    {e : ClientStreamingEvent} (hu : u.call.ctx.Validated) (h : u.step z e = some u') :
    u'.call.ctx.Validated := by
  cases step_move h with
  | start req hnew => exact hu.congr (u.call.start_metadata z req)
  | data chunk hreg => exact hu.congr (congrArg ServerContext.metadata (u.call.onData_ctx z chunk))
  | expire t ht => exact hu
  | timerHandler t ht =>
      exact hu.congr (ClientStreamingCallState.onDeadline_metadata z { u.call with timer := t })
  | cancel s => exact hu.congr (u.call.cancel_metadata z s)
  | read hrun hpop => exact hu
  | addMetadata trailing key value hrun => exact hu.addMetadata trailing key value
  | handlerReturn r hrun =>
      exact hu.congr (congrArg ServerContext.metadata (u.call.handlerReturned_ctx z r))
  | close hstart => exact hu.congr u.call.onClose_metadata
  | poll len b hbody hopen => exact hu

/-! ## Streaming responses -/

/-- The heads among the calls hold headers of the protocol only. -/
def OwnHeads (calls : List ResponseCall) : Prop :=
  ∀ code h, ResponseCall.writeHead code h ∈ calls → OwnHeaders h

theorem ownHeads_nil : OwnHeads [] := fun _ _ h => by cases h

theorem OwnHeads.append {cs ds : List ResponseCall} (hc : OwnHeads cs) (hd : OwnHeads ds) :
    OwnHeads (cs ++ ds) := by
  intro code h hmem
  rcases List.mem_append.1 hmem with hmem | hmem
  · exact hc code h hmem
  · exact hd code h hmem

/-- Calls without a head. -/
theorem ownHeads_of_count {cs : List ResponseCall} (h : cs.countP isHead = 0) : OwnHeads cs := by
  intro code hdrs hmem
  exact absurd (List.countP_eq_zero.1 h _ hmem) (by simp [isHead])

theorem ownHeads_reply {r : Reply} (h : OwnHeaders r.head) : OwnHeads r.calls := by
  intro code hdrs hmem
  rcases List.mem_cons.1 hmem with hmem | hmem
  · cases hmem
    exact h
  · have hend := List.mem_singleton.1 hmem
    split at hend <;> cases hend

/-- The head of a streaming response whose handler has not run. -/
theorem ownHeads_sendHeaders (z : Zlib) {ctx : ServerContext} (h : ctx.initialMetadata = []) :
    OwnHeads [.writeHead 200 (streamHead z ctx), .endWith] := by
  intro code hdrs hmem
  rcases List.mem_cons.1 hmem with hmem | hmem
  · cases hmem
    rw [streamHead, h]
    exact ownHeaders_addCommonHeaders z
  · cases List.mem_singleton.1 hmem

namespace RawServerWriterImpl

/-- The trailers of a writer: none before `Finish`, then those of a status without metadata. -/
def Trailered (w : RawServerWriterImpl) : Prop :=
  (w.finished = false → w.trailHdrs = []) ∧
    (w.finished = true → ∃ s, w.trailHdrs = buildTrailers s [] [])

theorem trailered_new (maxResponseSize : Nat) : (new maxResponseSize).Trailered :=
  ⟨fun _ => rfl, fun h => by cases h⟩

theorem Trailered.finish {w : RawServerWriterImpl} (h : w.Trailered) (s : Status) :
    (w.finish s).1.Trailered := by
  simp only [RawServerWriterImpl.finish]
  split
  · exact h
  · rename_i hf
    refine ⟨fun hfin => (by cases hfin), fun _ => ⟨s, ?_⟩⟩
    show buildTrailers s [] w.trailHdrs = _
    rw [h.1 (by simpa using hf)]

theorem Trailered.perform {w : RawServerWriterImpl} (h : w.Trailered) (c : WriterCall) :
    (w.perform c).1.Trailered := by
  cases c with
  | finish s => exact h.finish s
  | write payload =>
      simp only [RawServerWriterImpl.perform, RawServerWriterImpl.write]
      split
      · exact h
      split
      · exact h.finish _
      split
      · exact h
      · exact h

theorem Trailered.performAll {w : RawServerWriterImpl} (h : w.Trailered) (cs : List WriterCall) :
    (w.performAll cs).1.Trailered := by
  induction cs generalizing w with
  | nil => exact h
  | cons c cs ih => exact ih (h.perform c)

theorem Trailered.generate {w : RawServerWriterImpl} (h : w.Trailered) (len : Nat) :
    (w.generate len).1.Trailered := by
  simp only [Trailered, generate_finished, generate_trailHdrs]
  exact h

end RawServerWriterImpl

/-- What the metadata of a streaming response depend on: the metadata of the context, the flags, and
the writer. -/
structure StreamView where
  metadata : MetadataMap × MetadataMap
  responded : Bool
  closed : Bool
  writer : RawServerWriterImpl

/-- What a member function of a streaming call does: it leaves the metadata, its heads hold headers
of the protocol only, and the writer keeps its trailers while the stream is open. -/
structure StreamView.Member (v v' : StreamView) (calls : List ResponseCall) : Prop where
  metadata : v'.metadata = v.metadata
  heads : OwnHeads calls
  responded : v.responded = true → v'.responded = true
  trailered : (v.closed = false → v.writer.Trailered) → v'.closed = false → v'.writer.Trailered

namespace StreamView

theorem Member.refl (v : StreamView) : v.Member v [] := ⟨rfl, ownHeads_nil, id, id⟩

theorem Member.trans {v w x : StreamView} {cs ds : List ResponseCall} (h : v.Member w cs)
    (h' : w.Member x ds) : v.Member x (cs ++ ds) :=
  ⟨h'.metadata.trans h.metadata, h.heads.append h'.heads,
    fun hr => h'.responded (h.responded hr), fun ht => h'.trailered (h.trailered ht)⟩

/-- Calls that answer the request and leave the writer. -/
theorem Member.calls (v : StreamView) {cs : List ResponseCall} (h : OwnHeads cs) :
    v.Member { v with responded := true } cs := ⟨rfl, h, fun _ => rfl, id⟩

/-- The writer calls of the application. -/
theorem member_performAll (v : StreamView) (slot : List WriterCall) :
    v.Member { v with writer := (v.writer.performAll slot).1 } (v.writer.performAll slot).2 :=
  ⟨rfl, ownHeads_of_count (RawServerWriterImpl.performAll_heads _ _), id,
    fun ht hc => (ht hc).performAll slot⟩

theorem member_perform (v : StreamView) (w : WriterCall) :
    v.Member { v with writer := (v.writer.perform w).1 } (v.writer.perform w).2 :=
  ⟨rfl, ownHeads_of_count (RawServerWriterImpl.perform_heads _ _), id,
    fun ht hc => (ht hc).perform w⟩

theorem member_generate (v : StreamView) (len : Nat) :
    v.Member { v with writer := (v.writer.generate len).1 } (v.writer.generate len).2.2 :=
  ⟨rfl, ownHeads_of_count (RawServerWriterImpl.generate_heads _ _), id,
    fun ht hc => (ht hc).generate len⟩

/-- Once the stream is closed, the trailers do not matter. -/
theorem Member.closed {v w x : StreamView} {cs : List ResponseCall} (h : v.Member w cs)
    (hm : x.metadata = w.metadata) (hr : x.responded = w.responded) (hc : x.closed = true) :
    v.Member x cs :=
  ⟨hm.trans h.metadata, h.heads, fun ha => hr.trans (h.responded ha),
    fun _ ho => by rw [hc] at ho; cases ho⟩

end StreamView

/-- The heads in a trace hold headers of the protocol only. -/
def OwnTrace (tr : List ResponseEffect) : Prop :=
  ∀ code h, ResponseEffect.call (.writeHead code h) ∈ tr → OwnHeaders h

theorem OwnTrace.calls {tr : List ResponseEffect} (h : OwnTrace tr) {cs : List ResponseCall}
    (hcs : OwnHeads cs) : OwnTrace (tr ++ cs.map .call) := by
  intro code hdrs hmem
  rcases List.mem_append.1 hmem with hmem | hmem
  · exact h code hdrs hmem
  · obtain ⟨c, hc, heq⟩ := List.mem_map.1 hmem
    cases heq
    exact hcs code hdrs hc

theorem OwnTrace.closed {tr : List ResponseEffect} (h : OwnTrace tr) :
    OwnTrace (tr ++ [.closed]) := by
  intro code hdrs hmem
  rcases List.mem_append.1 hmem with hmem | hmem
  · exact h code hdrs hmem
  · cases List.mem_singleton.1 hmem

/-- The response headers were written. -/
def HasHead (tr : List ResponseEffect) : Prop := ∃ h, ResponseEffect.call (.writeHead 200 h) ∈ tr

theorem HasHead.append {tr : List ResponseEffect} (h : HasHead tr) (es : List ResponseEffect) :
    HasHead (tr ++ es) := by
  obtain ⟨hdrs, hmem⟩ := h
  exact ⟨hdrs, List.mem_append.2 (Or.inl hmem)⟩

/-- What holds of a streaming response: before the handler has the writer there is no metadata, and
no head was ever written with any. -/
structure StreamMetadata (spawned : Bool) (ctx : ServerContext) (v : StreamView)
    (tr : List ResponseEffect) : Prop where
  validated : ctx.Validated
  answered : spawned = true → v.responded = true
  early : spawned = false → ctx.metadata = ([], [])
  heads : OwnTrace tr
  head : spawned = true → HasHead tr
  trailered : v.closed = false → v.writer.Trailered

/-- A member function keeps it. -/
theorem StreamMetadata.member {spawned : Bool} {ctx ctx' : ServerContext} {v v' : StreamView}
    {tr : List ResponseEffect} (h : StreamMetadata spawned ctx v tr) {cs : List ResponseCall}
    (hm : v.Member v' cs) (hv : v.metadata = ctx.metadata) (hv' : v'.metadata = ctx'.metadata) :
    StreamMetadata spawned ctx' v' (tr ++ cs.map .call) := by
  have hctx : ctx'.metadata = ctx.metadata := by rw [← hv', hm.metadata, hv]
  exact ⟨h.validated.congr hctx, fun hs => hm.responded (h.answered hs),
    fun hs => by rw [hctx, h.early hs], h.heads.calls hm.heads,
    fun hs => (h.head hs).append _, hm.trailered h.trailered⟩

namespace ServerStreamingCallState

/-- What the metadata of the response depend on. -/
def view (c : ServerStreamingCallState) : StreamView :=
  ⟨c.ctx.metadata, c.responded, c.closed, c.writerImpl⟩

theorem view_sendError (z : Zlib) (c : ServerStreamingCallState) (s : Status) :
    c.view.Member (c.sendError z s).1.view (c.sendError z s).2 := by
  simp only [sendError]
  split
  · exact .refl _
  · exact .calls _ (ownHeads_reply (ownHeaders_errorReply z s))

theorem view_start (z : Zlib) (c : ServerStreamingCallState) (req : Request) :
    c.view.Member (c.start z req).1.view (c.start z req).2.1 := by
  simp only [start]
  split
  · exact view_sendError z c _
  · exact ⟨armDeadline_metadata req _ _, ownHeads_nil, id, id⟩

theorem view_onRequestEnd (z : Zlib) {c : ServerStreamingCallState}
    (hm : c.ctx.metadata = ([], [])) :
    c.view.Member (c.onRequestEnd z).1.view (c.onRequestEnd z).2.1 := by
  simp only [onRequestEnd]
  split
  · exact .refl _
  split
  · exact view_sendError z c _
  split
  · exact view_sendError z c _
  · exact .calls _ (ownHeads_sendHeaders z (congrArg Prod.fst hm))

theorem view_onData (z : Zlib) {c : ServerStreamingCallState}
    (hm : c.responded = false → c.ctx.metadata = ([], [])) (chunk : Bytes) :
    c.view.Member (c.onData z chunk).1.view (c.onData z chunk).2.1 := by
  simp only [onData]
  split
  · exact .refl _
  · rename_i hr
    split
    · exact view_onRequestEnd z (c := { c with decoder := c.decoder.markEos })
        (hm (by simpa using hr))
    split
    · exact view_sendError z { c with decoder := c.decoder.feed chunk } _
    · exact .refl _

/-- A handler is spawned behind the headers. -/
theorem onData_head (z : Zlib) {c : ServerStreamingCallState} {chunk : Bytes}
    (h : (c.onData z chunk).2.2.isSome = true) :
    HasHead ((c.onData z chunk).2.1.map .call) := by
  simp only [onData, onRequestEnd] at h ⊢
  split at h
  · cases h
  rename_i hr
  rw [if_neg hr]
  split at h
  · rename_i hemp
    rw [if_pos hemp]
    split at h
    · cases h
    rename_i herr
    rw [if_neg herr]
    split at h
    · cases h
    rename_i hdone
    rw [if_neg hdone, if_neg hr]
    exact ⟨_, List.mem_cons_self⟩
  · split at h
    · cases h
    · cases h

theorem view_onDeadline (z : Zlib) (c : ServerStreamingCallState) (slot : List WriterCall) :
    c.view.Member (c.onDeadline z slot).1.view (c.onDeadline z slot).2 :=
  (c.view.member_performAll slot).trans (view_sendError z (c.triggerCancel slot).1 _)

theorem view_cancel (z : Zlib) (c : ServerStreamingCallState) (s : Status)
    (slot : List WriterCall) :
    c.view.Member (c.cancel z s slot).1.view (c.cancel z s slot).2 := by
  simp only [cancel]
  split
  · exact .refl _
  · refine (c.view.member_performAll slot).trans ?_
    split
    · exact StreamView.member_perform _ (.finish s)
    · exact view_sendError z (c.triggerCancel slot).1 s

theorem view_onClose (c : ServerStreamingCallState) (slot : List WriterCall) :
    c.view.Member (c.onClose slot).1.view (c.onClose slot).2 := by
  simp only [onClose]
  split
  · exact .refl _
  split
  · exact (StreamView.Member.refl c.view).closed rfl rfl rfl
  · exact (c.view.member_performAll slot).closed rfl rfl rfl

theorem view_handlerReturned (c : ServerStreamingCallState) (status : Option Status) :
    c.view.Member (c.handlerReturned status).1.view (c.handlerReturned status).2 := by
  simp only [handlerReturned]
  split
  · exact .refl _
  · exact c.view.member_perform _

end ServerStreamingCallState

namespace BidiStreamingCallState

/-- What the metadata of the response depend on. -/
def view (c : BidiStreamingCallState) : StreamView :=
  ⟨c.ctx.metadata, c.responded, c.closed, c.writerImpl⟩

theorem view_sendError (z : Zlib) (c : BidiStreamingCallState) (s : Status) :
    c.view.Member (c.sendError z s).1.view (c.sendError z s).2 := by
  simp only [sendError]
  split
  · exact .refl _
  · exact .calls _ (ownHeads_reply (ownHeaders_errorReply z s))

theorem view_finishWriter (c : BidiStreamingCallState) (s : Status) :
    c.view.Member (c.finishWriter s).1.view (c.finishWriter s).2 := by
  simp only [finishWriter]
  split
  · exact .refl _
  · exact c.view.member_perform (.finish s)

theorem view_start (z : Zlib) {c : BidiStreamingCallState} (hm : c.ctx.metadata = ([], []))
    (req : Request) : c.view.Member (c.start z req).1.view (c.start z req).2.1 := by
  simp only [start]
  split
  · exact view_sendError z c _
  · refine ⟨armDeadline_metadata req _ _, ownHeads_sendHeaders z ?_, fun _ => rfl, id⟩
    show (armDeadline req _ c.timer).1.metadata.1 = []
    rw [armDeadline_metadata]
    exact congrArg Prod.fst hm

/-- The handler is spawned behind the headers. -/
theorem start_head (z : Zlib) {c : BidiStreamingCallState} {req : Request}
    (h : (c.start z req).2.2 = true) : HasHead ((c.start z req).2.1.map .call) := by
  simp only [start] at h ⊢
  split at h
  · cases h
  · rename_i hm
    rw [if_neg hm]
    exact ⟨_, List.mem_cons_self⟩

theorem start_responded (z : Zlib) {c : BidiStreamingCallState} {req : Request}
    (h : (c.start z req).2.2 = true) : (c.start z req).1.responded = true := by
  simp only [start] at h ⊢
  split at h
  · cases h
  · rename_i hm
    rw [if_neg hm]

theorem view_onData (c : BidiStreamingCallState) (chunk : Bytes) :
    c.view.Member (c.onData chunk).1.view (c.onData chunk).2 := by
  simp only [onData]
  split
  · exact .refl _
  split
  · exact .refl _
  · exact view_finishWriter ({ c with
      parser := (c.parser.feed chunk).parser
      readerImpl := c.readerImpl.pushAll (c.parser.feed chunk).messages }.setError
        (c.parser.feed chunk).status) _

theorem view_onDeadline (c : BidiStreamingCallState) (slot : List WriterCall) :
    c.view.Member (c.onDeadline slot).1.view (c.onDeadline slot).2 :=
  (c.view.member_performAll slot).trans
    (view_finishWriter ((c.triggerCancel slot).1.setError deadlineExceeded) _)

theorem view_cancel (z : Zlib) (c : BidiStreamingCallState) (s : Status)
    (slot : List WriterCall) :
    c.view.Member (c.cancel z s slot).1.view (c.cancel z s slot).2 := by
  simp only [cancel]
  split
  · exact .refl _
  · refine (c.view.member_performAll slot).trans ?_
    split
    · exact StreamView.member_perform _ (.finish s)
    · exact view_sendError z ((c.triggerCancel slot).1.setError s) s

theorem view_onClose (c : BidiStreamingCallState) (slot : List WriterCall) :
    c.view.Member (c.onClose slot).1.view (c.onClose slot).2 := by
  simp only [onClose]
  split
  · exact .refl _
  split
  · exact (StreamView.Member.refl c.view).closed rfl rfl rfl
  · exact (c.view.member_performAll slot).closed rfl rfl rfl

end BidiStreamingCallState

/-- **No step writes metadata into the head of a server-streaming response.** -/
theorem ServerStreamingCall.streamMetadata_step {z : Zlib} {u u' : ServerStreamingCall}
    {e : ServerStreamingEvent} (hu : StreamMetadata u.spawned u.call.ctx u.call.view u.trace)
    (h : u.step z e = some u') :
    StreamMetadata u'.spawned u'.call.ctx u'.call.view u'.trace := by
  cases step_move h with
  | start req hnew => exact hu.member (u.call.view_start z req) rfl rfl
  | data chunk hreg =>
      -- an unanswered call has spawned no handler, so its context is still without metadata
      have hm : u.call.responded = false → u.call.ctx.metadata = ([], []) := by
        intro hr
        apply hu.early
        cases hs : u.spawned with
        | false => rfl
        | true => exact absurd (hr.symm.trans (hu.answered hs)) (by simp)
      have hmember := hu.member (u.call.view_onData z hm chunk) rfl rfl
      refine ⟨hmember.validated, fun hs => ?_, fun hs => ?_, hmember.heads, fun hs => ?_,
        hmember.trailered⟩
      · rcases Bool.or_eq_true_iff.1 hs with hs | hs
        · exact hmember.answered hs
        · exact (ServerStreamingCallState.headStep_onData u.call chunk).2.2 hs
      · exact hmember.early (Bool.or_eq_false_iff.1 hs).1
      · rcases Bool.or_eq_true_iff.1 hs with hs | hs
        · exact hmember.head hs
        · obtain ⟨hdrs, hmem⟩ := u.call.onData_head z hs
          exact ⟨hdrs, List.mem_append.2 (Or.inr hmem)⟩
  | expire t ht => exact hu
  | timerHandler slot t ht =>
      exact hu.member (ServerStreamingCallState.view_onDeadline z { u.call with timer := t } _) rfl
        rfl
  | cancel s slot => exact hu.member (u.call.view_cancel z s _) rfl rfl
  | perform w hspawned => exact hu.member (u.call.view.member_perform w) rfl rfl
  | addMetadata trailing key value hs =>
      exact ⟨hu.validated.addMetadata trailing key value, hu.answered,
        fun hs' => absurd (hs'.symm.trans hs) (by simp), hu.heads, hu.head, hu.trailered⟩
  | handlerReturn i status req hi => exact hu.member (u.call.view_handlerReturned status) rfl rfl
  | closeAgain slot hstart hclosed => exact hu
  | close slot hstart hopen =>
      have hclose := hu.member (u.call.view_onClose (u.slotCalls slot)) rfl rfl
      exact ⟨hclose.validated, hclose.answered, hclose.early, hclose.heads.closed,
        fun hs => (hclose.head hs).append _, hclose.trailered⟩
  | poll len hspawned hopen => exact hu.member (u.call.view.member_generate len) rfl rfl

/-- **No step writes metadata into the head of a bidirectional response.** -/
theorem BidiStreamingCall.streamMetadata_step {z : Zlib} {u u' : BidiStreamingCall}
    {e : BidiStreamingEvent} (hs : u.registered = true → u.started = true)
    (hu : StreamMetadata u.registered u.call.ctx u.call.view u.trace)
    (h : u.step z e = some u') :
    StreamMetadata u'.registered u'.call.ctx u'.call.view u'.trace := by
  cases step_move h with
  | start req hstart =>
      -- `Start` is the first event, so that no metadata has been added before it
      have hreg : u.registered = false := by
        cases hr : u.registered with
        | false => rfl
        | true => exact absurd ((hs hr).symm.trans hstart) (by simp)
      have hmember := hu.member (u.call.view_start z (hu.early hreg) req) rfl rfl
      refine ⟨hmember.validated, fun hr => ?_, fun _ => hmember.early hreg, hmember.heads,
        fun hr => ?_, hmember.trailered⟩
      · exact u.call.start_responded z hr
      · obtain ⟨hdrs, hmem⟩ := u.call.start_head z hr
        exact ⟨hdrs, List.mem_append.2 (Or.inr hmem)⟩
  | data chunk hreg => exact hu.member (u.call.view_onData chunk) rfl rfl
  | expire t ht => exact hu
  | timerHandler slot t ht =>
      exact hu.member (BidiStreamingCallState.view_onDeadline { u.call with timer := t } _) rfl rfl
  | cancel s slot => exact hu.member (u.call.view_cancel z s _) rfl rfl
  | read hreg hpop => exact hu
  | perform w hreg => exact hu.member (u.call.view.member_perform w) rfl rfl
  | addMetadata trailing key value hr =>
      exact ⟨hu.validated.addMetadata trailing key value, hu.answered,
        fun hr' => absurd (hr'.symm.trans hr) (by simp), hu.heads, hu.head, hu.trailered⟩
  | handlerReturn status hrun =>
      exact hu.member (BidiStreamingCallState.view_finishWriter
        { u.call with timer := u.call.timer.cancel } (handlerStatus status)) rfl rfl
  | closeAgain slot hstart hclosed => exact hu
  | close slot hstart hopen =>
      have hclose := hu.member (u.call.view_onClose (u.slotCalls slot)) rfl rfl
      exact ⟨hclose.validated, hclose.answered, hclose.early, hclose.heads.closed,
        fun hs => (hclose.head hs).append _, hclose.trailered⟩
  | poll len hreg hopen => exact hu.member (u.call.view.member_generate len) rfl rfl

end Rpcpio.Server
