import Rpcpio.Server.AnyServerCall
import Rpcpio.Server.ResponseLifetime

/-!
# The deadline timer of a server call

A positive `grpc-timeout` arms the timer of the call state. Every member function leaves the timer
alone or ends the call, so the timer stays armed while the handler of a unary, a client-streaming or
a bidirectional call runs. `ServerStreamingCallState::OnRequestEnd` cancels it before the handler is
spawned, and a completion that is queued by then finds `responded_` set: the deadline of a
server-streaming call guards it only until its handler runs (`deadline_guarded_iff`).
-/

set_option autoImplicit false

namespace Rpcpio.Server

open Rpcpio.Library Rpcpio.Protocol

/-! ## What a deadline depends on -/

/-- What decides whether a deadline guards a call: whether one was parsed, whether the call is
ended, and the timer. -/
structure Watch where
  hasDeadline : Bool
  ended : Bool
  timer : Timer

namespace Watch

/-- While the call is not ended, its deadline has the timer armed or its completion queued. -/
def Armed (w : Watch) : Prop := w.hasDeadline = true → w.ended = false → w.timer ≠ .idle

/-- What a member function does to the watch: it ends the call, or it leaves the timer alone. -/
def Keeps (w w' : Watch) : Prop :=
  w'.ended = true ∨
    w'.hasDeadline = w.hasDeadline ∧ w'.timer = w.timer ∧ (w.ended = true → w'.ended = true)

theorem Keeps.refl (w : Watch) : w.Keeps w := Or.inr ⟨rfl, rfl, id⟩

theorem Keeps.ended {w w' : Watch} (h : w'.ended = true) : w.Keeps w' := Or.inl h

theorem Armed.keeps {w w' : Watch} (h : w.Armed) (hk : w.Keeps w') : w'.Armed := by
  intro hd ho
  rcases hk with hover | ⟨hdeadline, htimer, hmono⟩
  · rw [ho] at hover
    cases hover
  · rw [htimer]
    apply h
    · rw [← hdeadline, hd]
    · cases hw : w.ended with
      | false => rfl
      | true =>
          rw [hmono hw] at ho
          cases ho

/-- A timer that expires has its completion queued. -/
theorem Armed.expire {w : Watch} {t : Timer} (ht : w.timer.expire = some t) :
    Watch.Armed { w with timer := t } := by
  intro _ _
  obtain ⟨_, rfl⟩ := Timer.expire_eq_some ht
  simp

end Watch

/-- Parsing the `grpc-timeout` header arms the timer or leaves the deadline alone. -/
theorem armDeadline_armed {ended : Bool} {ctx : ServerContext} {timer : Timer} (req : Request)
    (h : Watch.Armed ⟨ctx.hasDeadline, ended, timer⟩) :
    Watch.Armed ⟨(armDeadline req ctx timer).1.hasDeadline, ended,
      (armDeadline req ctx timer).2⟩ := by
  simp only [armDeadline]
  split
  · exact h
  · intro _ _
    simp [Timer.arm]

@[simp] theorem addMetadata_hasDeadline (ctx : ServerContext) (trailing : Bool)
    (key value : Bytes) : (ctx.addMetadata trailing key value).hasDeadline = ctx.hasDeadline := by
  cases trailing <;> rfl

/-! ## Unary calls -/

namespace ServerCallState

/-- What the deadline of the call depends on. -/
def watch (c : ServerCallState) : Watch := ⟨c.ctx.hasDeadline, c.responded || c.closed, c.timer⟩

theorem ended_sendError (z : Zlib) (c : ServerCallState) (s : Status) :
    (c.sendError z s).1.watch.ended = true := by
  simp only [sendError, watch]
  split
  · simp [*]
  · rfl

theorem keeps_onRequestEnd (z : Zlib) (c : ServerCallState) :
    c.watch.Keeps (c.onRequestEnd z).1.watch := by
  simp only [onRequestEnd]
  split
  · exact .refl _
  split
  · exact .ended (ended_sendError z c _)
  split
  · exact .ended (ended_sendError z c _)
  split
  · split
    · exact .ended (ended_sendError z c _)
    · exact .refl _
  · exact .refl _

theorem keeps_onData (z : Zlib) (c : ServerCallState) (chunk : Bytes) :
    c.watch.Keeps (c.onData z chunk).1.watch := by
  simp only [onData]
  split
  · exact .refl _
  split
  · exact keeps_onRequestEnd z { c with decoder := c.decoder.markEos }
  split
  · exact .ended (ended_sendError z _ _)
  · exact .refl _

theorem ended_cancel (z : Zlib) (c : ServerCallState) (s : Status) :
    (c.cancel z s).1.watch.ended = true := by
  simp only [cancel]
  split
  · rename_i h
    rw [Bool.or_comm] at h
    exact h
  · exact ended_sendError z _ s

theorem ended_onClose (c : ServerCallState) : c.onClose.watch.ended = true := by
  simp only [onClose]
  split
  · rename_i h
    simp [watch, h]
  · split <;> simp [watch]

theorem ended_handlerReturned (z : Zlib) (c : ServerCallState) (r : HandlerResult) :
    (c.handlerReturned z r).1.watch.ended = true := by
  simp [watch, (c.handlerReturned_reply z r).2.1]

theorem armed_start (z : Zlib) {c : ServerCallState} (req : Request) (h : c.watch.Armed) :
    (c.start z req).1.watch.Armed := by
  simp only [start]
  split
  · exact h.keeps (.ended (ended_sendError z _ _))
  split
  · exact h.keeps (.ended (ended_sendError z _ _))
  · exact armDeadline_armed req h

end ServerCallState

/-- **The timer of a unary call stays armed until the call is ended.** -/
theorem ServerCall.armed_step {z : Zlib} {u u' : ServerCall} {e : ServerCallEvent}
    (hu : u.call.watch.Armed) (h : u.step z e = some u') : u'.call.watch.Armed := by
  cases step_move h with
  | start req hnew => exact ServerCallState.armed_start z req hu
  | data chunk hreg => exact hu.keeps (u.call.keeps_onData z chunk)
  | expire t ht => exact Watch.Armed.expire (w := u.call.watch) ht
  | timerHandler t ht => exact hu.keeps (.ended (ServerCallState.ended_sendError z _ _))
  | cancel s => exact hu.keeps (.ended (u.call.ended_cancel z s))
  | addMetadata trailing key value hrun =>
      exact hu.keeps (Or.inr ⟨addMetadata_hasDeadline _ _ _ _, rfl, id⟩)
  | handlerReturn i r req hi => exact hu.keeps (.ended (u.call.ended_handlerReturned z r))
  | close hstart => exact hu.keeps (.ended u.call.ended_onClose)
  | poll len b hbody hopen => exact hu

/-! ## Client-streaming calls -/

namespace ClientStreamingCallState

/-- What the deadline of the call depends on. -/
def watch (c : ClientStreamingCallState) : Watch :=
  ⟨c.ctx.hasDeadline, c.responded || c.closed, c.timer⟩

theorem ended_sendError (z : Zlib) (c : ClientStreamingCallState) (s : Status) :
    (c.sendError z s).1.watch.ended = true := by
  simp only [sendError, watch]
  split
  · simp [*]
  · rfl

theorem keeps_onData (z : Zlib) (c : ClientStreamingCallState) (chunk : Bytes) :
    c.watch.Keeps (c.onData z chunk).1.watch := by
  simp only [onData]
  split
  · exact .refl _
  split
  · exact .refl _
  split
  · exact .refl _
  · exact .ended (ended_sendError z _ _)

theorem ended_cancel (z : Zlib) (c : ClientStreamingCallState) (s : Status) :
    (c.cancel z s).1.watch.ended = true := by
  simp only [cancel]
  split
  · rename_i h
    rw [Bool.or_comm] at h
    exact h
  · exact ended_sendError z _ s

theorem ended_onClose (c : ClientStreamingCallState) : c.onClose.watch.ended = true := by
  simp only [onClose]
  split
  · rename_i h
    simp [watch, h]
  · split <;> simp [watch]

theorem ended_handlerReturned (z : Zlib) (c : ClientStreamingCallState) (r : HandlerResult) :
    (c.handlerReturned z r).1.watch.ended = true := by
  simp [watch, (c.handlerReturned_reply z r).2.1]

theorem armed_start (z : Zlib) {c : ClientStreamingCallState} (req : Request)
    (h : c.watch.Armed) : (c.start z req).1.watch.Armed := by
  simp only [start]
  split
  · exact h.keeps (.ended (ended_sendError z _ _))
  · exact armDeadline_armed req h

end ClientStreamingCallState

/-- **The timer of a client-streaming call stays armed until the call is ended.** -/
theorem ClientStreamingCall.armed_step {z : Zlib} {u u' : ClientStreamingCall}
    {e : ClientStreamingEvent} (hu : u.call.watch.Armed) (h : u.step z e = some u') :
    u'.call.watch.Armed := by
  cases step_move h with
  | start req hnew => exact ClientStreamingCallState.armed_start z req hu
  | data chunk hreg => exact hu.keeps (u.call.keeps_onData z chunk)
  | expire t ht => exact Watch.Armed.expire (w := u.call.watch) ht
  | timerHandler t ht => exact hu.keeps (.ended (ClientStreamingCallState.ended_sendError z _ _))
  | cancel s => exact hu.keeps (.ended (u.call.ended_cancel z s))
  | read hrun hpop => exact hu
  | addMetadata trailing key value hrun =>
      exact hu.keeps (Or.inr ⟨addMetadata_hasDeadline _ _ _ _, rfl, id⟩)
  | handlerReturn r hrun => exact hu.keeps (.ended (u.call.ended_handlerReturned z r))
  | close hstart => exact hu.keeps (.ended u.call.ended_onClose)
  | poll len b hbody hopen => exact hu

/-! ## Server-streaming calls -/

namespace ServerStreamingCallState

/-- What the deadline of the call depends on: `SendError` and the spawning of the handler both set
`responded_`. -/
def watch (c : ServerStreamingCallState) : Watch :=
  ⟨c.ctx.hasDeadline, c.responded || c.closed, c.timer⟩

theorem ended_sendError (z : Zlib) (c : ServerStreamingCallState) (s : Status) :
    (c.sendError z s).1.watch.ended = true := by
  simp only [sendError, watch]
  split
  · simp [*]
  · rfl

theorem keeps_perform (c : ServerStreamingCallState) (w : WriterCall) :
    c.watch.Keeps (c.perform w).1.watch := .refl _

theorem keeps_onRequestEnd (z : Zlib) (c : ServerStreamingCallState) :
    c.watch.Keeps (c.onRequestEnd z).1.watch ∧
      ((c.onRequestEnd z).2.2.isSome = true → (c.onRequestEnd z).1.watch.ended = true) := by
  simp only [onRequestEnd]
  split
  · exact ⟨.refl _, fun h => by cases h⟩
  split
  · exact ⟨.ended (ended_sendError z c _), fun _ => ended_sendError z c _⟩
  split
  · exact ⟨.ended (ended_sendError z c _), fun _ => ended_sendError z c _⟩
  · exact ⟨.ended rfl, fun _ => rfl⟩

theorem keeps_onData (z : Zlib) (c : ServerStreamingCallState) (chunk : Bytes) :
    c.watch.Keeps (c.onData z chunk).1.watch ∧
      ((c.onData z chunk).2.2.isSome = true → (c.onData z chunk).1.watch.ended = true) := by
  simp only [onData]
  split
  · exact ⟨.refl _, fun h => by cases h⟩
  split
  · exact keeps_onRequestEnd z { c with decoder := c.decoder.markEos }
  split
  · exact ⟨.ended (ended_sendError z _ _), fun _ => ended_sendError z _ _⟩
  · exact ⟨.refl _, fun h => by cases h⟩

theorem keeps_cancel (z : Zlib) (c : ServerStreamingCallState) (s : Status)
    (slot : List WriterCall) : c.watch.Keeps (c.cancel z s slot).1.watch := by
  simp only [cancel]
  split
  · exact .refl _
  split
  · exact .refl _
  · exact .ended (ended_sendError z _ s)

theorem ended_onClose (c : ServerStreamingCallState) (slot : List WriterCall) :
    (c.onClose slot).1.watch.ended = true := by
  simp only [onClose]
  split
  · rename_i h
    simp [watch, h]
  · split <;> simp [watch, triggerCancel]

theorem keeps_handlerReturned (c : ServerStreamingCallState) (status : Option Status) :
    c.watch.Keeps (c.handlerReturned status).1.watch := by
  simp only [handlerReturned]
  split
  · exact .refl _
  · exact keeps_perform c _

theorem armed_start (z : Zlib) {c : ServerStreamingCallState} (req : Request)
    (h : c.watch.Armed) : (c.start z req).1.watch.Armed := by
  simp only [start]
  split
  · exact h.keeps (.ended (ended_sendError z _ _))
  · exact armDeadline_armed req h

end ServerStreamingCallState

namespace ServerStreamingCall

/-- The timer stays armed until the handler is spawned, and spawning it sets `responded_`. -/
structure DeadlineInvariant (u : ServerStreamingCall) : Prop where
  armed : u.call.watch.Armed
  answered : u.spawned = true → u.call.watch.ended = true
  spawned : u.spawned = true → u.registered = true
  registered : u.registered = true → u.started = true

/-- What does not spawn a handler and keeps the watch keeps the invariant. -/
theorem DeadlineInvariant.keeps {u : ServerStreamingCall} (hu : u.DeadlineInvariant)
    {c : ServerStreamingCallState} (handlers : List Bytes) (tr : List ResponseEffect)
    (hk : u.call.watch.Keeps c.watch) :
    DeadlineInvariant { u with call := c, handlers := handlers, trace := tr } := by
  refine ⟨hu.armed.keeps hk, fun h => ?_, hu.spawned, hu.registered⟩
  rcases hk with hover | ⟨_, _, hmono⟩
  · exact hover
  · exact hmono (hu.answered h)

/-- **No step drops the timer of a server-streaming call before its handler is spawned.** -/
theorem deadlineInvariant_step {z : Zlib} {u u' : ServerStreamingCall} {e : ServerStreamingEvent}
    (hu : u.DeadlineInvariant) (h : u.step z e = some u') : u'.DeadlineInvariant := by
  cases step_move h with
  | start req hnew =>
      -- nothing is spawned before `Start`
      have hspawned : u.spawned = false := by
        cases hsp : u.spawned with
        | false => rfl
        | true => exact absurd ((hu.registered (hu.spawned hsp)).symm.trans hnew) (by simp)
      refine ⟨ServerStreamingCallState.armed_start z req hu.armed, fun h => ?_, fun h => ?_,
        fun _ => rfl⟩
      · exact absurd (hspawned.symm.trans h) (by simp)
      · exact absurd (hspawned.symm.trans h) (by simp)
  | data chunk hr =>
      obtain ⟨hk, hspawn⟩ := u.call.keeps_onData z chunk
      refine ⟨hu.armed.keeps hk, fun h => ?_, fun _ => hr, hu.registered⟩
      rcases Bool.or_eq_true_iff.1 h with h | h
      · -- the request is complete now, or it was before
        rcases hk with hover | ⟨_, _, hmono⟩
        · exact hover
        · exact hmono (hu.answered h)
      · exact hspawn h
  | expire t ht =>
      exact ⟨Watch.Armed.expire (w := u.call.watch) ht, hu.answered, hu.spawned, hu.registered⟩
  | timerHandler slot t ht =>
      exact hu.keeps _ _ (.ended (ServerStreamingCallState.ended_sendError z _ _))
  | cancel s slot => exact hu.keeps _ _ (u.call.keeps_cancel z s _)
  | perform w hspawned => exact hu.keeps _ _ (u.call.keeps_perform w)
  | addMetadata trailing key value hspawned =>
      exact hu.keeps _ _ (Or.inr ⟨addMetadata_hasDeadline _ _ _ _, rfl, id⟩)
  | handlerReturn i status req hi => exact hu.keeps _ _ (u.call.keeps_handlerReturned status)
  | closeAgain slot hstart hclosed => exact hu
  | close slot hstart hopen => exact hu.keeps _ _ (.ended (u.call.ended_onClose _))
  | poll len hspawned hopen => exact hu.keeps _ _ (.refl _)

end ServerStreamingCall

/-! ## Bidirectional calls -/

namespace BidiStreamingCallState

/-- What the deadline of the call depends on: its response is ended with the writer. -/
def watch (c : BidiStreamingCallState) : Watch :=
  ⟨c.ctx.hasDeadline, c.writerImpl.finished || c.closed, c.timer⟩

/-- A member function keeps the watch, the deadline, the answer, and a writer without early
trailers. -/
structure Member (c c' : BidiStreamingCallState) : Prop where
  watch : c.watch.Keeps c'.watch
  deadline : c'.ctx.hasDeadline = c.ctx.hasDeadline
  responded : c.responded = true → c'.responded = true
  fresh : c.writerImpl.Fresh → c'.writerImpl.Fresh

theorem Member.refl (c : BidiStreamingCallState) : c.Member c := ⟨.refl _, rfl, id, id⟩

/-- A call on the writer finishes it or leaves it open. -/
theorem keeps_writer (c : BidiStreamingCallState) {w : RawServerWriterImpl}
    (hw : c.writerImpl.finished = true → w.finished = true) :
    c.watch.Keeps { c with writerImpl := w }.watch := by
  refine Or.inr ⟨rfl, rfl, fun h => ?_⟩
  rcases Bool.or_eq_true_iff.1 h with h | h
  · exact Bool.or_eq_true_iff.2 (Or.inl (hw h))
  · exact Bool.or_eq_true_iff.2 (Or.inr h)

theorem member_perform (c : BidiStreamingCallState) (w : WriterCall) :
    c.Member (c.perform w).1 := by
  refine ⟨c.keeps_writer fun h => ?_, rfl, id, fun h => h.perform w⟩
  rw [RawServerWriterImpl.perform_finished h]
  exact h

/-- After `Finish` the writer is finished. -/
theorem member_finishWriter {c c' : BidiStreamingCallState} (s : Status)
    (hd : c'.ctx.hasDeadline = c.ctx.hasDeadline)
    (hr : c.responded = true → c'.responded = true)
    (hf : c.writerImpl.Fresh → c'.writerImpl.Fresh) : c.Member (c'.finishWriter s).1 := by
  simp only [finishWriter]
  split
  · rename_i hfin
    exact ⟨.ended (by simp [watch, hfin]), hd, hr, hf⟩
  · exact ⟨.ended (by simp [watch]), hd, hr, fun _ => RawServerWriterImpl.fresh_finish _ s⟩

theorem member_onData (c : BidiStreamingCallState) (chunk : Bytes) :
    c.Member (c.onData chunk).1 := by
  simp only [onData]
  split
  · exact ⟨.refl _, rfl, id, id⟩
  split
  · exact ⟨.refl _, rfl, id, id⟩
  · exact member_finishWriter _ rfl id id

theorem member_onDeadline (c : BidiStreamingCallState) (t : Timer) (slot : List WriterCall) :
    c.Member ({ c with timer := t }.onDeadline slot).1 := by
  simp only [onDeadline]
  exact member_finishWriter _ rfl id fun h => h.performAll slot

/-- `Cancel` finishes the writer, once the headers are sent. -/
theorem member_cancel (z : Zlib) {c : BidiStreamingCallState} (hr : c.responded = true)
    (s : Status) (slot : List WriterCall) : c.Member (c.cancel z s slot).1 := by
  simp only [cancel]
  split
  · exact .refl c
  · rw [if_pos (show ((c.triggerCancel slot).1.setError s).responded = true from hr)]
    refine ⟨.ended ?_, rfl, fun _ => hr, fun h => ?_⟩
    · simp [watch, perform, RawServerWriterImpl.perform]
    · exact (h.performAll slot).perform (.finish s)

theorem member_onClose (c : BidiStreamingCallState) (slot : List WriterCall) :
    c.Member (c.onClose slot).1 := by
  simp only [onClose]
  split
  · exact .refl c
  split
  · exact ⟨.ended (by simp [watch]), rfl, id, id⟩
  · exact ⟨.ended (by simp [watch]), rfl, id, fun _ h => by cases h⟩

theorem member_handlerReturned (c : BidiStreamingCallState) (status : Option Status) :
    c.Member (c.handlerReturned status).1 :=
  member_finishWriter (handlerStatus status) rfl id id

theorem member_read (c : BidiStreamingCallState) : c.Member c.read.1 := ⟨.refl _, rfl, id, id⟩

theorem member_addMetadata (c : BidiStreamingCallState) (trailing : Bool) (key value : Bytes) :
    c.Member { c with ctx := c.ctx.addMetadata trailing key value } :=
  ⟨Or.inr ⟨addMetadata_hasDeadline _ _ _ _, rfl, id⟩, addMetadata_hasDeadline _ _ _ _, id, id⟩

theorem member_generate (c : BidiStreamingCallState) (len : Nat) :
    c.Member { c with writerImpl := (c.writerImpl.generate len).1 } := by
  refine ⟨c.keeps_writer fun h => ?_, rfl, id, fun h => h.generate len⟩
  rw [RawServerWriterImpl.generate_finished]
  exact h

end BidiStreamingCallState

namespace BidiStreamingCall

/-- The timer stays armed until the writer is finished or the stream is closed; a deadline is there
only once the handler has been spawned behind the headers. -/
structure DeadlineInvariant (u : BidiStreamingCall) : Prop where
  armed : u.call.watch.Armed
  deadline : u.call.ctx.hasDeadline = true → u.registered = true
  registered : u.registered = true → u.started = true ∧ u.call.responded = true
  fresh : u.call.writerImpl.Fresh

/-- A member function keeps the invariant. -/
theorem DeadlineInvariant.member {u : BidiStreamingCall} (hu : u.DeadlineInvariant)
    {c : BidiStreamingCallState} (hm : u.call.Member c) (running : Bool)
    (results : List PopResult) (tr : List ResponseEffect) : DeadlineInvariant { u with
      call := c, running := running, results := results, trace := tr } :=
  ⟨hu.armed.keeps hm.watch, fun h => hu.deadline (hm.deadline ▸ h),
    fun h => ⟨(hu.registered h).1, hm.responded (hu.registered h).2⟩, hm.fresh hu.fresh⟩

/-- Before `Start`, `Cancel` may send an error; there is no deadline to guard. -/
theorem DeadlineInvariant.cancelled {z : Zlib} {u : BidiStreamingCall} (hu : u.DeadlineInvariant)
    (hr : u.registered = false) (s : Status) (tr : List ResponseEffect) :
    DeadlineInvariant { u with call := (u.call.cancel z s []).1, trace := tr } := by
  have hd : (u.call.cancel z s []).1.ctx.hasDeadline = u.call.ctx.hasDeadline := by
    simp only [BidiStreamingCallState.cancel]
    split
    · rfl
    split
    · rfl
    · simp only [BidiStreamingCallState.sendError]
      split <;> rfl
  have hnone : u.call.ctx.hasDeadline ≠ true := fun h => by
    rw [hu.deadline h] at hr
    cases hr
  refine ⟨fun h => absurd (hd ▸ h) hnone, fun h => absurd (hd ▸ h) hnone, fun h => ?_, ?_⟩
  · exact absurd (hr.symm.trans h) (by simp)
  · simp only [BidiStreamingCallState.cancel]
    split
    · exact hu.fresh
    split
    · exact hu.fresh.perform (.finish s)
    · simp only [BidiStreamingCallState.sendError]
      split <;> exact hu.fresh

/-- **No step drops the timer of a bidirectional call before it is ended.** -/
theorem deadlineInvariant_step {z : Zlib} {u u' : BidiStreamingCall} {e : BidiStreamingEvent}
    (hu : u.DeadlineInvariant) (h : u.step z e = some u') : u'.DeadlineInvariant := by
  cases step_move h with
  | start req hnew =>
      have hnone : u.call.ctx.hasDeadline ≠ true := by
        intro hd
        exact absurd ((hu.registered (hu.deadline hd)).1.symm.trans hnew) (by simp)
      simp only [BidiStreamingCallState.start]
      split
      · -- the metadata is rejected: no deadline was parsed
        have hsend : ∀ s : Status, (u.call.sendError z s).1.ctx = u.call.ctx ∧
            (u.call.sendError z s).1.writerImpl = u.call.writerImpl := fun s => by
          simp only [BidiStreamingCallState.sendError]
          split <;> exact ⟨rfl, rfl⟩
        refine ⟨fun h => absurd ((hsend _).1 ▸ h) hnone, fun h => absurd ((hsend _).1 ▸ h) hnone,
          fun h => (by cases h), fun h => ?_⟩
        have hw := (hsend (nghttp2HeadersToMetadata req.header [] u.call.maxMetadataSize).1).2
        show (u.call.sendError z _).1.writerImpl.trailHdrs = []
        rw [hw]
        exact hu.fresh (hw ▸ h)
      · exact ⟨armDeadline_armed req hu.armed, fun _ => rfl, fun _ => ⟨rfl, rfl⟩, hu.fresh⟩
  | data chunk hreg => exact hu.member (u.call.member_onData chunk) _ _ _
  | expire t ht =>
      exact ⟨Watch.Armed.expire (w := u.call.watch) ht, hu.deadline, hu.registered, hu.fresh⟩
  | timerHandler slot t ht => exact hu.member (u.call.member_onDeadline t _) _ _ _
  | cancel s slot =>
      cases hr : u.registered with
      | true => exact hu.member (u.call.member_cancel z (hu.registered hr).2 s _) _ _ _
      | false =>
          simp only [slotCalls, hr]
          exact hu.cancelled hr s _
  | read hreg hpop => exact hu.member u.call.member_read _ _ _
  | perform w hreg => exact hu.member (u.call.member_perform w) _ _ _
  | addMetadata trailing key value hreg =>
      exact hu.member (u.call.member_addMetadata trailing key value) _ _ _
  | handlerReturn status hrun => exact hu.member (u.call.member_handlerReturned status) _ _ _
  | closeAgain slot hstart hclosed => exact hu
  | close slot hstart hopen => exact hu.member (u.call.member_onClose _) _ _ _
  | poll len hreg hopen => exact hu.member (u.call.member_generate len) _ _ _

end BidiStreamingCall

/-! ## Which calls a deadline guards -/

/-- The events by which the time of a deadline comes and its completion runs. -/
def expiry {ε : Type} (timer : Timer) (expire timerHandler : ε) : List ε :=
  if timer = .armed then [expire, timerHandler] else [timerHandler]

namespace AnyServerCall

/-- The call when its deadline has expired; the slot handler of the application makes the calls
`slot` on the writer of a streaming response. -/
def expired (z : Zlib) (slot : List WriterCall) : AnyServerCall → Option AnyServerCall
  | .unary u =>
      ((ServerCall.machine z).run u (expiry u.call.timer .expire .timerHandler)).map .unary
  | .clientStreaming u =>
      ((ClientStreamingCall.machine z).run u
        (expiry u.call.timer .expire .timerHandler)).map .clientStreaming
  | .serverStreaming u =>
      ((ServerStreamingCall.machine z).run u
        (expiry u.call.timer .expire (.timerHandler slot))).map .serverStreaming
  | .bidi u =>
      ((BidiStreamingCall.machine z).run u
        (expiry u.call.timer .expire (.timerHandler slot))).map .bidi

/-- The slot handler does not itself finish the writer. -/
def LeavesOpen (slot : List WriterCall) : AnyServerCall → Prop
  | .serverStreaming u => (u.call.writerImpl.performAll (u.slotCalls slot)).1.finished = false
  | .bidi u => (u.call.writerImpl.performAll (u.slotCalls slot)).1.finished = false
  | _ => True

/-- The status with which the call has ended: that of the reply sent last, or of the writer. -/
def EndedWith (z : Zlib) (s : Status) : AnyServerCall → Prop
  | .unary u => (errorReply z s).effects <:+ u.trace
  | .clientStreaming u => (errorReply z s).effects <:+ u.trace
  | .serverStreaming u =>
      if u.spawned then
        u.call.writerImpl.finished = true ∧ u.call.writerImpl.trailHdrs = buildTrailers s [] []
      else (errorReply z s).effects <:+ u.trace
  | .bidi u =>
      u.call.writerImpl.finished = true ∧ u.call.writerImpl.trailHdrs = buildTrailers s [] []

/-- A positive `grpc-timeout` was parsed, and the call is neither answered nor closed. -/
def AwaitsDeadline (s : AnyServerCall) : Prop :=
  s.ctx.hasDeadline = true ∧ s.finished = false ∧ s.closed = false

/-- The timer is armed or its completion queued, and its expiry cancels the context and ends the
call with DEADLINE_EXCEEDED. -/
def DeadlineGuarded (z : Zlib) (s : AnyServerCall) : Prop :=
  s.timer ≠ .idle ∧
    ∀ slot, s.LeavesOpen slot → ∃ t, s.expired z slot = some t ∧ t.ctx.cancelled = true ∧
      t.EndedWith z deadlineExceeded

/-- The handler of a server-streaming call has been spawned, behind `timer_.cancel()`. -/
def TimerDropped : AnyServerCall → Prop
  | .serverStreaming u => u.spawned = true
  | _ => False

end AnyServerCall

section

variable {z : Zlib}

/-- The completion of the timer runs with the timer idle, whether the wait had expired or not. -/
theorem ServerCall.run_expiry {u : ServerCall} (ht : u.call.timer ≠ .idle) :
    (ServerCall.machine z).run u (expiry u.call.timer .expire .timerHandler) =
      some (u.after ({ u.call with timer := .idle }.onDeadline z)) := by
  cases hc : u.call.timer with
  | idle => exact absurd hc ht
  | armed =>
      simp [expiry, Machine.run, ServerCall.machine, ServerCall.step, Timer.expire, Timer.fire, hc,
        ServerCall.after]
  | expired =>
      simp [expiry, Machine.run, ServerCall.machine, ServerCall.step, Timer.fire, hc]

theorem ClientStreamingCall.run_expiry {u : ClientStreamingCall} (ht : u.call.timer ≠ .idle) :
    (ClientStreamingCall.machine z).run u (expiry u.call.timer .expire .timerHandler) =
      some (u.after ({ u.call with timer := .idle }.onDeadline z)) := by
  cases hc : u.call.timer with
  | idle => exact absurd hc ht
  | armed =>
      simp [expiry, Machine.run, ClientStreamingCall.machine, ClientStreamingCall.step,
        Timer.expire, Timer.fire, hc, ClientStreamingCall.after]
  | expired =>
      simp [expiry, Machine.run, ClientStreamingCall.machine, ClientStreamingCall.step, Timer.fire,
        hc]

theorem ServerStreamingCall.run_expiry {u : ServerStreamingCall} (slot : List WriterCall)
    (ht : u.call.timer ≠ .idle) :
    (ServerStreamingCall.machine z).run u (expiry u.call.timer .expire (.timerHandler slot)) =
      some (u.after ({ u.call with timer := .idle }.onDeadline z (u.slotCalls slot))) := by
  cases hc : u.call.timer with
  | idle => exact absurd hc ht
  | armed =>
      simp [expiry, Machine.run, ServerStreamingCall.machine, ServerStreamingCall.step,
        Timer.expire, Timer.fire, hc, ServerStreamingCall.after, ServerStreamingCall.slotCalls]
  | expired =>
      simp [expiry, Machine.run, ServerStreamingCall.machine, ServerStreamingCall.step, Timer.fire,
        hc]

theorem BidiStreamingCall.run_expiry {u : BidiStreamingCall} (slot : List WriterCall)
    (ht : u.call.timer ≠ .idle) :
    (BidiStreamingCall.machine z).run u (expiry u.call.timer .expire (.timerHandler slot)) =
      some (u.after ({ u.call with timer := .idle }.onDeadline (u.slotCalls slot))) := by
  cases hc : u.call.timer with
  | idle => exact absurd hc ht
  | armed =>
      simp [expiry, Machine.run, BidiStreamingCall.machine, BidiStreamingCall.step,
        Timer.expire, Timer.fire, hc, BidiStreamingCall.after, BidiStreamingCall.slotCalls]
  | expired =>
      simp [expiry, Machine.run, BidiStreamingCall.machine, BidiStreamingCall.step, Timer.fire, hc]

/-- The deadline of an unanswered unary call. -/
theorem ServerCall.deadlineGuarded {u : ServerCall} (hu : u.call.watch.Armed)
    (ha : (AnyServerCall.unary u).AwaitsDeadline) :
    (AnyServerCall.unary u).DeadlineGuarded z := by
  obtain ⟨hd, hr, hc⟩ := ha
  have hresp : u.call.responded = false := hr
  have hclosed : u.call.closed = false := hc
  have ht : u.call.timer ≠ .idle := hu hd (by simp [ServerCallState.watch, hresp, hclosed])
  refine ⟨ht, fun slot _ => ?_⟩
  simp only [AnyServerCall.expired, ServerCall.run_expiry ht, Option.map_some]
  refine ⟨_, rfl, ?_, ?_⟩
  · simp [AnyServerCall.ctx, ServerCall.after, ServerCallState.onDeadline,
      ServerCallState.sendError, hresp, ServerContext.triggerCancel]
  · simp [AnyServerCall.EndedWith, ServerCall.after, ServerCallState.onDeadline,
      ServerCallState.sendError, hresp, replyEffects]

/-- The deadline of an unanswered client-streaming call. -/
theorem ClientStreamingCall.deadlineGuarded {u : ClientStreamingCall}
    (hu : u.call.watch.Armed) (ha : (AnyServerCall.clientStreaming u).AwaitsDeadline) :
    (AnyServerCall.clientStreaming u).DeadlineGuarded z := by
  obtain ⟨hd, hr, hc⟩ := ha
  have hresp : u.call.responded = false := hr
  have hclosed : u.call.closed = false := hc
  have ht : u.call.timer ≠ .idle :=
    hu hd (by simp [ClientStreamingCallState.watch, hresp, hclosed])
  refine ⟨ht, fun slot _ => ?_⟩
  simp only [AnyServerCall.expired, ClientStreamingCall.run_expiry ht, Option.map_some]
  refine ⟨_, rfl, ?_, ?_⟩
  · simp [AnyServerCall.ctx, ClientStreamingCall.after, ClientStreamingCallState.onDeadline,
      ClientStreamingCallState.sendError, ClientStreamingCallState.setError, hresp,
      ServerContext.triggerCancel]
  · simp [AnyServerCall.EndedWith, ClientStreamingCall.after, ClientStreamingCallState.onDeadline,
      ClientStreamingCallState.sendError, ClientStreamingCallState.setError, hresp, replyEffects]

/-- The deadline of a server-streaming call guards it until its handler is spawned; afterwards its
completion finds `responded_` set and leaves the writer open. -/
theorem ServerStreamingCall.deadlineGuarded_iff {u : ServerStreamingCall}
    (hu : u.DeadlineInvariant) (ha : (AnyServerCall.serverStreaming u).AwaitsDeadline) :
    (AnyServerCall.serverStreaming u).DeadlineGuarded z ↔ u.spawned = false := by
  obtain ⟨hd, hr, hc⟩ := ha
  have hclosed : u.call.closed = false := hc
  cases hs : u.spawned with
  | false =>
      have hresp : u.call.responded = false := by
        simpa [AnyServerCall.finished, hs] using hr
      have ht : u.call.timer ≠ .idle :=
        hu.armed hd (by simp [ServerStreamingCallState.watch, hresp, hclosed])
      refine iff_of_true ⟨ht, fun slot _ => ?_⟩ rfl
      simp only [AnyServerCall.expired, ServerStreamingCall.run_expiry slot ht, Option.map_some]
      refine ⟨_, rfl, ?_, ?_⟩
      · simp [AnyServerCall.ctx, ServerStreamingCall.after, ServerStreamingCallState.onDeadline,
          ServerStreamingCallState.sendError, ServerStreamingCallState.triggerCancel, hresp,
          ServerContext.triggerCancel]
      · simp [AnyServerCall.EndedWith, ServerStreamingCall.after,
          ServerStreamingCallState.onDeadline, ServerStreamingCallState.sendError,
          ServerStreamingCallState.triggerCancel, ServerStreamingCall.slotCalls,
          RawServerWriterImpl.performAll, hresp, hs, Reply.effects]
  | true =>
      have hresp : u.call.responded = true := by
        have hover : (u.call.responded || u.call.closed) = true := hu.answered hs
        simpa [hclosed] using hover
      have hfin : u.call.writerImpl.finished = false := by
        simpa [AnyServerCall.finished, hs] using hr
      refine iff_of_false (fun hg => ?_) (by simp)
      obtain ⟨ht, hexp⟩ := hg
      obtain ⟨t, hrun, _, hend⟩ := hexp [] (by
        simpa [AnyServerCall.LeavesOpen, ServerStreamingCall.slotCalls,
          RawServerWriterImpl.performAll] using hfin)
      simp only [AnyServerCall.expired, ServerStreamingCall.run_expiry [] ht, Option.map_some,
        Option.some.injEq] at hrun
      subst hrun
      simp [AnyServerCall.EndedWith, ServerStreamingCall.after,
        ServerStreamingCallState.onDeadline, ServerStreamingCallState.sendError,
        ServerStreamingCallState.triggerCancel, ServerStreamingCall.slotCalls,
        RawServerWriterImpl.performAll, hresp, hs, hfin] at hend

/-- The deadline of a bidirectional call whose writer is open. -/
theorem BidiStreamingCall.deadlineGuarded {u : BidiStreamingCall} (hu : u.DeadlineInvariant)
    (ha : (AnyServerCall.bidi u).AwaitsDeadline) : (AnyServerCall.bidi u).DeadlineGuarded z := by
  obtain ⟨hd, hr, hc⟩ := ha
  have hreg : u.registered = true := hu.deadline hd
  have hfin : u.call.writerImpl.finished = false := by
    simpa [AnyServerCall.finished, hreg] using hr
  have hclosed : u.call.closed = false := hc
  have ht : u.call.timer ≠ .idle :=
    hu.armed hd (by simp [BidiStreamingCallState.watch, hfin, hclosed])
  refine ⟨ht, fun slot hslot => ?_⟩
  have hopen : (u.call.writerImpl.performAll (u.slotCalls slot)).1.finished = false := hslot
  simp only [AnyServerCall.expired, BidiStreamingCall.run_expiry slot ht, Option.map_some]
  refine ⟨_, rfl, ?_, ?_⟩
  · simp [AnyServerCall.ctx, BidiStreamingCall.after, BidiStreamingCallState.onDeadline,
      BidiStreamingCallState.finishWriter, BidiStreamingCallState.setError,
      BidiStreamingCallState.triggerCancel, hopen, ServerContext.triggerCancel]
  · -- the slot handler may have queued messages, but it has left the trailers alone
    have hfresh := hu.fresh.performAll (u.slotCalls slot) hopen
    simp [AnyServerCall.EndedWith, BidiStreamingCall.after, BidiStreamingCallState.onDeadline,
      BidiStreamingCallState.finishWriter, BidiStreamingCallState.setError,
      BidiStreamingCallState.triggerCancel, RawServerWriterImpl.finish, hopen, hfresh]

/-- **The server deadline stays armed while the handler runs**, except that of a server-streaming
call whose handler has been spawned: in every reachable call that is neither answered nor closed,
the deadline guards the call if and only if its timer was not dropped. -/
theorem deadline_guarded_iff (z : Zlib) (s : AnyServerCall) (hs : s.Reachable z)
    (ha : s.AwaitsDeadline) : s.DeadlineGuarded z ↔ ¬ s.TimerDropped := by
  cases s with
  | unary u =>
      obtain ⟨_, _, _, _, hreach⟩ := hs
      have hu := hreach.invariant (I := fun u => u.call.watch.Armed)
        (fun _ _ _ hu h => ServerCall.armed_step hu h) fun h => by cases h
      exact iff_of_true (ServerCall.deadlineGuarded hu ha) id
  | clientStreaming u =>
      obtain ⟨_, _, _, _, hreach⟩ := hs
      have hu := hreach.invariant (I := fun u => u.call.watch.Armed)
        (fun _ _ _ hu h => ClientStreamingCall.armed_step hu h) fun h => by cases h
      exact iff_of_true (ClientStreamingCall.deadlineGuarded hu ha) id
  | serverStreaming u =>
      obtain ⟨_, _, _, _, hreach⟩ := hs
      have hu := hreach.invariant (I := ServerStreamingCall.DeadlineInvariant)
        (fun _ _ _ hu h => ServerStreamingCall.deadlineInvariant_step hu h)
        ⟨fun h => (by cases h), fun h => (by cases h), fun h => (by cases h),
          fun h => (by cases h)⟩
      rw [ServerStreamingCall.deadlineGuarded_iff hu ha]
      simp [AnyServerCall.TimerDropped]
  | bidi u =>
      obtain ⟨_, _, _, _, hreach⟩ := hs
      have hu := hreach.invariant (I := BidiStreamingCall.DeadlineInvariant)
        (fun _ _ _ hu h => BidiStreamingCall.deadlineInvariant_step hu h)
        ⟨fun h => (by cases h), fun h => (by cases h), fun h => (by cases h),
          RawServerWriterImpl.fresh_new _⟩
      exact iff_of_true (BidiStreamingCall.deadlineGuarded hu ha) id

end

/-- A bidirectional call with a timeout, whose handler has written a message. -/
theorem deadline_guarded_example :
    ∃ u, (BidiStreamingCall.machine Zlib.none).run
        (BidiStreamingCall.new (BidiStreamingCallState.new 100 100 100 []))
        [.start timeoutRequest, .perform (.write [7])] = some u ∧
      (AnyServerCall.bidi u).DeadlineGuarded Zlib.none := by
  obtain ⟨u, hu⟩ := Option.isSome_iff_exists.1 (show ((BidiStreamingCall.machine Zlib.none).run
    (BidiStreamingCall.new (BidiStreamingCallState.new 100 100 100 []))
    [.start timeoutRequest, .perform (.write [7])]).isSome = true by decide)
  have ha : ∀ v, (BidiStreamingCall.machine Zlib.none).run
      (BidiStreamingCall.new (BidiStreamingCallState.new 100 100 100 []))
      [.start timeoutRequest, .perform (.write [7])] = some v →
        (AnyServerCall.bidi v).AwaitsDeadline := by
    rintro v hv
    cases hv
    exact ⟨by decide, by decide, by decide⟩
  exact ⟨u, hu, (deadline_guarded_iff Zlib.none (.bidi u) ⟨100, 100, 100, [], _, hu⟩ (ha u hu)).2
    id⟩

/-- **A deadline without a timer.** The request of a server-streaming call with a timeout ends, and
its handler is spawned: the timer is cancelled. -/
theorem not_deadline_guarded :
    ¬ ∀ (z : Zlib) (s : AnyServerCall), s.Reachable z → s.AwaitsDeadline → s.DeadlineGuarded z := by
  intro h
  have hidle : ∀ u, (ServerStreamingCall.machine Zlib.none).run
      (ServerStreamingCall.new (ServerStreamingCallState.new 100 100 100 []))
      [.start timeoutRequest, .data (frameOf [1]), .data []] = some u →
        (AnyServerCall.serverStreaming u).AwaitsDeadline ∧ u.call.timer = .idle := by
    rintro u hu
    cases hu
    exact ⟨⟨by decide, by decide, by decide⟩, by decide⟩
  obtain ⟨u, hu⟩ := Option.isSome_iff_exists.1 (show ((ServerStreamingCall.machine Zlib.none).run
    (ServerStreamingCall.new (ServerStreamingCallState.new 100 100 100 []))
    [.start timeoutRequest, .data (frameOf [1]), .data []]).isSome = true by decide)
  obtain ⟨ha, ht⟩ := hidle u hu
  exact (h Zlib.none (.serverStreaming u) ⟨100, 100, 100, [], _, hu⟩ ha).1 ht

end Rpcpio.Server
