import Rpcpio.Protocol.StreamReceiving
import Rpcpio.Server.AnyServerCall
import Rpcpio.Server.FramingErrors

/-!
# Closing a bidirectional stream and its reader

`OnClose` and `Cancel` of a bidirectional call set the error of the reader's queue only while the
writer is unfinished. The end of the queue stays once it is there, and a queue with an end never
lets the handler sleep; but a handler that finished the writer itself, by `Finish` or by a message
over the limit, is not told that the stream is closed (`reader_unblocked_iff`).
-/

set_option autoImplicit false

namespace Rpcpio.Protocol

namespace StreamMessageQueue

/-- A later queue: an end stays, and the consumer is not left asleep. -/
structure Follows (q q' : StreamMessageQueue) : Prop where
  ending : q.ending.isSome = true → q'.ending.isSome = true
  awake : q.NoLostWakeup → q'.NoLostWakeup

theorem Follows.refl (q : StreamMessageQueue) : Follows q q := ⟨id, id⟩

theorem Follows.trans {q r s : StreamMessageQueue} (h : Follows q r) (h' : Follows r s) :
    Follows q s :=
  ⟨fun he => h'.ending (h.ending he), fun ha => h'.awake (h.awake ha)⟩

theorem ending_isSome {q : StreamMessageQueue} :
    q.ending.isSome = true ↔ q.error.isSome = true ∨ q.eos = true := by
  simp only [ending]
  cases he : q.error with
  | some e => simp
  | none => cases heos : q.eos <;> simp

theorem follows_push (q : StreamMessageQueue) (p : Bytes) : Follows q (q.push p) := by
  constructor
  · intro h
    rw [push_ending]
    exact h
  · intro _
    exact q.push_noLostWakeup p

theorem follows_setEos (q : StreamMessageQueue) : Follows q q.setEos :=
  ⟨fun _ => ending_isSome.2 (Or.inr q.setEos_eos), fun _ => q.setEos_noLostWakeup⟩

theorem follows_setError (q : StreamMessageQueue) (s : Status) : Follows q (q.setError s) :=
  ⟨fun _ => by rw [setError_ending]; rfl, fun _ => q.setError_noLostWakeup s⟩

theorem follows_pop (q : StreamMessageQueue) : Follows q q.pop.1 := by
  constructor
  · intro h
    rw [pop_ending]
    exact h
  · intro _
    exact q.pop_noLostWakeup

theorem follows_pushAll (q : StreamMessageQueue) (msgs : List Bytes) :
    Follows q (msgs.foldl push q) := by
  induction msgs generalizing q with
  | nil => exact .refl q
  | cons msg msgs ih => exact (follows_push q msg).trans (ih (q.push msg))

end StreamMessageQueue

end Rpcpio.Protocol

namespace Rpcpio.Server

open Rpcpio.Library Rpcpio.Protocol

namespace BidiStreamingCallState

/-- `reader_impl_->queue_`. -/
def queue (c : BidiStreamingCallState) : StreamMessageQueue := c.readerImpl.queue

theorem finishWriter_queue (c : BidiStreamingCallState) (s : Status) :
    (c.finishWriter s).1.queue = c.queue :=
  congrArg RawServerReaderImpl.queue (c.finishWriter_reader s)

theorem sendError_queue (z : Zlib) (c : BidiStreamingCallState) (s : Status) :
    (c.sendError z s).1.queue = c.queue := by
  simp only [sendError]
  split <;> rfl

theorem start_queue (z : Zlib) (c : BidiStreamingCallState) (req : Request) :
    (c.start z req).1.queue = c.queue := by
  simp only [start]
  split
  · exact sendError_queue z c _
  · rfl

/-- `OnData` pushes messages, and ends the queue at a half-close or a framing error. -/
theorem follows_onData (c : BidiStreamingCallState) (chunk : Bytes) :
    c.queue.Follows (c.onData chunk).1.queue := by
  have hpush := c.queue.follows_pushAll (c.parser.feed chunk).messages
  simp only [onData]
  split
  · exact c.queue.follows_setEos
  split
  · exact hpush
  · rw [finishWriter_queue]
    exact hpush.trans (StreamMessageQueue.follows_setError _ _)

theorem follows_onDeadline (c : BidiStreamingCallState) (slot : List WriterCall) :
    c.queue.Follows (c.onDeadline slot).1.queue := by
  simp only [onDeadline]
  rw [finishWriter_queue]
  exact c.queue.follows_setError _

/-- The closure of `Cancel` ends the queue, unless the stream is closed or the writer finished. -/
theorem cancel_queue (z : Zlib) (c : BidiStreamingCallState) (s : Status)
    (slot : List WriterCall) : (c.cancel z s slot).1.queue =
      if c.closed || c.writerImpl.finished then c.queue else c.queue.setError s := by
  simp only [cancel]
  split
  · rfl
  split
  · rfl
  · exact sendError_queue z _ s

/-- `OnClose` ends the queue, unless it has run or the writer is finished. -/
theorem onClose_queue (c : BidiStreamingCallState) (slot : List WriterCall) :
    (c.onClose slot).1.queue =
      if c.closed || c.writerImpl.finished then c.queue else c.queue.setError clientClosed := by
  simp only [onClose]
  cases hc : c.closed with
  | true => rfl
  | false =>
      cases hf : c.writerImpl.finished with
      | true => rfl
      | false => rfl

end BidiStreamingCallState

namespace BidiStreamingCall

/-- The reader's queue. -/
def queue (u : BidiStreamingCall) : StreamMessageQueue := u.call.queue

/-- The queue has an end and no read is suspended. -/
def ReaderUnblocked (u : BidiStreamingCall) : Prop :=
  u.queue.ending.isSome = true ∧ u.queue.canPop = true

end BidiStreamingCall

/-- The events in which `OnClose` or the closure of `Cancel` runs. -/
def BidiStreamingEvent.closes : BidiStreamingEvent → Bool
  | .close _ => true
  | .cancel _ _ => true
  | _ => false

namespace BidiStreamingCall

/-- Once `OnClose` or `Cancel` has run while the handler runs, the reader is and stays unblocked. -/
def UnblocksReader (z : Zlib) (u : BidiStreamingCall) (es : List BidiStreamingEvent) : Prop :=
  ∀ pre e post v w, pre ++ e :: post <+: es → (machine z).run u pre = some v →
    e.closes = true → v.running = true → (machine z).run v (e :: post) = some w →
      w.ReaderUnblocked

/-- `OnClose` or `Cancel` finds an open stream with an unfinished writer, or a queue that has its
end already. -/
def NotifiesReader (u : BidiStreamingCall) (e : BidiStreamingEvent) : Prop :=
  e.closes = true → u.running = true →
    (u.call.closed = false ∧ u.call.writerImpl.finished = false) ∨ u.queue.ending.isSome = true

instance (u : BidiStreamingCall) (e : BidiStreamingEvent) : Decidable (u.NotifiesReader e) :=
  inferInstanceAs (Decidable (_ → _ → _))

/-- **Every event leads to a later queue.** -/
theorem follows_step {z : Zlib} {u u' : BidiStreamingCall} {e : BidiStreamingEvent}
    (h : step z u e = some u') : u.queue.Follows u'.queue := by
  cases step_move h with
  | start req hnew =>
      show u.call.queue.Follows (u.call.start z req).1.queue
      rw [BidiStreamingCallState.start_queue]
      exact .refl _
  | data chunk hreg => exact u.call.follows_onData chunk
  | expire t ht => exact .refl _
  | timerHandler slot t ht =>
      exact BidiStreamingCallState.follows_onDeadline { u.call with timer := t } _
  | cancel s slot =>
      show u.call.queue.Follows (u.call.cancel z s _).1.queue
      rw [BidiStreamingCallState.cancel_queue]
      split
      · exact .refl _
      · exact u.call.queue.follows_setError s
  | read hreg hpop => exact u.call.queue.follows_pop
  | perform w hreg => exact .refl _
  | addMetadata trailing key value hreg => exact .refl _
  | handlerReturn status hrun =>
      show u.call.queue.Follows (u.call.handlerReturned status).1.queue
      rw [BidiStreamingCallState.handlerReturned, BidiStreamingCallState.finishWriter_queue]
      exact .refl _
  | closeAgain slot hstart hclosed => exact .refl _
  | close slot hstart hopen =>
      show u.call.queue.Follows (u.call.onClose _).1.queue
      rw [BidiStreamingCallState.onClose_queue]
      split
      · exact .refl _
      · exact u.call.queue.follows_setError _
  | poll len hreg hopen => exact .refl _

theorem follows_run {z : Zlib} {u w : BidiStreamingCall} {es : List BidiStreamingEvent}
    (hrun : (machine z).run u es = some w) : u.queue.Follows w.queue :=
  Machine.run_preorder (M := machine z)
    (R := fun u w : BidiStreamingCall => u.queue.Follows w.queue) (fun u => .refl u.queue)
    (fun _ _ _ h h' => h.trans h') (fun _ _ _ h => follows_step h) es u w hrun

/-- Ending the queue in a closing step: exactly when the step notifies the reader. -/
theorem ending_closing {z : Zlib} {u u' : BidiStreamingCall} {e : BidiStreamingEvent}
    (he : e.closes = true) (h : step z u e = some u') :
    u'.queue.ending.isSome = true ↔
      (u.call.closed = false ∧ u.call.writerImpl.finished = false) ∨
        u.queue.ending.isSome = true := by
  have key : ∀ s : Status,
      (if u.call.closed || u.call.writerImpl.finished then u.call.queue
        else u.call.queue.setError s).ending.isSome = true ↔
      (u.call.closed = false ∧ u.call.writerImpl.finished = false) ∨
        u.call.queue.ending.isSome = true := by
    intro s
    cases hc : u.call.closed <;> cases hf : u.call.writerImpl.finished <;>
      simp [StreamMessageQueue.setError_ending]
  cases e with
  | close slot =>
      simp only [step, Option.ite_none_right_eq_some, Option.some.injEq] at h
      obtain ⟨_, rfl⟩ := h
      simp only [onClose]
      split
      · rename_i hc
        simp [hc]
      · have hq := u.call.onClose_queue (u.slotCalls slot)
        show (u.call.onClose _).1.queue.ending.isSome = true ↔ _
        rw [hq]
        exact key clientClosed
  | cancel s slot =>
      cases h
      show (u.call.cancel z s _).1.queue.ending.isSome = true ↔ _
      rw [BidiStreamingCallState.cancel_queue]
      exact key s
  | start | data | expire | timerHandler | read | perform | addMetadata | handlerReturn | poll =>
      cases he

/-- **Closing a bidirectional stream unblocks its handler** in a run if and only if every `OnClose`
and `Cancel` that runs while the handler runs finds an open stream with an unfinished writer, or a
queue that has its end already. -/
theorem reader_unblocked_iff (z : Zlib) (maxMessageSize maxMetadataSize maxResponseSize : Nat)
    (peerIdentity : Bytes) (es : List BidiStreamingEvent) (x : BidiStreamingCall)
    (hrun : (machine z).run (new (BidiStreamingCallState.new maxMessageSize maxMetadataSize
      maxResponseSize peerIdentity)) es = some x) :
    UnblocksReader z (new (BidiStreamingCallState.new maxMessageSize maxMetadataSize
      maxResponseSize peerIdentity)) es ↔
      (machine z).Along NotifiesReader (new (BidiStreamingCallState.new maxMessageSize
        maxMetadataSize maxResponseSize peerIdentity)) es := by
  constructor
  · intro hub
    apply Machine.along_of_forall
    intro pre e post v hes hpre he hv
    obtain ⟨v', hv', hrest⟩ := Machine.run_append.1 (hes ▸ hrun)
    rw [hpre, Option.some.injEq] at hv'
    subst hv'
    obtain ⟨w, hw, _⟩ := Machine.run_cons_some.1 hrest
    have hended := (hub pre e [] v w (hes ▸ ⟨post, by simp⟩) hpre he hv
      (Machine.run_cons_some.2 ⟨w, hw, rfl⟩)).1
    exact (ending_closing he hw).1 hended
  · rintro hal pre e post v w ⟨rest, rfl⟩ hpre he hv hvw
    obtain ⟨v', hstep, hpost⟩ := Machine.run_cons_some.1 hvw
    rw [List.append_assoc, List.cons_append] at hal
    have hnotify : v.NotifiesReader e := Machine.Along.next hal hpre
    have hended := (follows_run hpost).ending ((ending_closing he hstep).2 (hnotify he hv))
    -- the queue starts awake, and every event keeps it so
    have hawake := (follows_run (Machine.run_append.2 ⟨v, hpre, hvw⟩)).awake
      StreamMessageQueue.new_noLostWakeup
    refine ⟨hended, ?_⟩
    have hne := hawake.of_ending hended
    cases hw : w.queue.waiter <;> simp_all [StreamMessageQueue.canPop]

/-- A call with a message limit of four bytes for requests and none for responses. -/
def mutedCall : BidiStreamingCall := new (BidiStreamingCallState.new 4 0 0 [])

/-- A client that closes the stream while a read is suspended. -/
theorem reader_unblocked_example :
    ∃ x, (machine Zlib.none).run mutedCall [.start ⟨[], []⟩, .read, .close [], .read] = some x ∧
      UnblocksReader Zlib.none mutedCall [.start ⟨[], []⟩, .read, .close [], .read] := by
  obtain ⟨x, hx⟩ := Option.isSome_iff_exists.1 (show ((machine Zlib.none).run mutedCall
    [.start ⟨[], []⟩, .read, .close [], .read]).isSome = true by decide)
  exact ⟨x, hx, (reader_unblocked_iff Zlib.none 4 0 0 [] _ x hx).2 (by decide)⟩

/-- **A reader that is not told.** A read is suspended, the handler writes a message over the limit,
and the client closes the stream: the read stays suspended. -/
theorem not_reader_unblocked :
    ∃ x, (machine Zlib.none).run mutedCall
        [.start ⟨[], []⟩, .read, .perform (.write [7]), .close []] = some x ∧
      x.running = true ∧ x.call.closed = true ∧ x.queue.waiter = .suspended ∧
      ¬ UnblocksReader Zlib.none mutedCall
        [.start ⟨[], []⟩, .read, .perform (.write [7]), .close []] := by
  refine ⟨_, rfl, by decide, by decide, by decide, fun h => ?_⟩
  have hended := (h [.start ⟨[], []⟩, .read, .perform (.write [7])] (.close []) [] _ _
    (List.prefix_rfl) rfl rfl (by decide) rfl).1
  exact absurd hended (by decide)

/-! ## What finishes the writer silently -/

/-- While the handler runs, only its own calls on the writer finish it without ending the queue. -/
theorem silent_finish {z : Zlib} {u u' : BidiStreamingCall} {e : BidiStreamingEvent}
    (h : step z u e = some u') (hrun : u'.running = true)
    (hopen : u.call.writerImpl.finished = false) (hfin : u'.call.writerImpl.finished = true)
    (hend : u'.queue.ending = none) : ∃ w, e = .perform w := by
  have hsame : ∀ w : RawServerWriterImpl, w.finished = u.call.writerImpl.finished →
      w.finished = true → ∃ c, e = .perform c := by
    intro w hw hf
    rw [hw, hopen] at hf
    cases hf
  have hended : ∀ (q : StreamMessageQueue) (s : Status), (q.setError s).ending = none →
      ∃ c, e = .perform c := by
    intro q s hq
    rw [StreamMessageQueue.setError_ending] at hq
    cases hq
  cases step_move h with
  | perform w hreg => exact ⟨w, rfl⟩
  | start req hnew =>
      refine hsame _ ?_ hfin
      show (u.call.start z req).1.writerImpl.finished = _
      simp only [BidiStreamingCallState.start]
      split
      · simp only [BidiStreamingCallState.sendError]
        split <;> rfl
      · rfl
  | data chunk hreg =>
      change (u.call.onData chunk).1.queue.ending = none at hend
      change (u.call.onData chunk).1.writerImpl.finished = true at hfin
      simp only [BidiStreamingCallState.onData] at hend hfin
      split at hend
      · rename_i hemp
        rw [if_pos hemp] at hfin
        exact hsame _ rfl hfin
      · rename_i hemp
        rw [if_neg hemp] at hfin
        split at hend
        · rename_i hok
          rw [if_pos hok] at hfin
          exact hsame _ rfl hfin
        · rw [BidiStreamingCallState.finishWriter_queue] at hend
          exact hended _ _ hend
  | expire t ht => exact hsame _ rfl hfin
  | timerHandler slot t ht =>
      change (BidiStreamingCallState.onDeadline _ _).1.queue.ending = none at hend
      simp only [BidiStreamingCallState.onDeadline] at hend
      rw [BidiStreamingCallState.finishWriter_queue] at hend
      exact hended _ _ hend
  | cancel s slot =>
      change (u.call.cancel z s _).1.queue.ending = none at hend
      rw [BidiStreamingCallState.cancel_queue] at hend
      split at hend
      · rename_i hc
        refine hsame _ ?_ hfin
        show (u.call.cancel z s _).1.writerImpl.finished = _
        rw [BidiStreamingCallState.cancel, if_pos hc]
      · exact hended _ _ hend
  | read hreg hpop => exact hsame _ rfl hfin
  | addMetadata trailing key value hreg => exact hsame _ rfl hfin
  | handlerReturn status hrunning => cases hrun
  | closeAgain slot hstart hclosed => exact hsame _ rfl hfin
  | close slot hstart hlive =>
      -- an open stream with an unfinished writer: `OnClose` ends the queue
      change (u.call.onClose _).1.queue.ending = none at hend
      rw [BidiStreamingCallState.onClose_queue, if_neg (by simp [hlive, hopen])] at hend
      exact hended _ _ hend
  | poll len hreg hopen => exact hsame _ (u.call.writerImpl.generate_finished len) hfin

end BidiStreamingCall

end Rpcpio.Server
