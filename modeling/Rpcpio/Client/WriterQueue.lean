import Rpcpio.Client.StreamingCall

/-!
# The queue of the client writer

What the generator of a client writer reads, the frames and `writes_done_`, is changed by the
closures of `Enqueue` and `MarkWritesDone` and by the generator alone (`other_step`): callbacks,
timers, cancellations and the end of the stream leave it.
-/

set_option autoImplicit false

namespace Rpcpio.Client

open Rpcpio.Library Rpcpio.Protocol

namespace StreamingCallState

/-- The members of the writer that its generator reads. -/
def queueOf (c : StreamingCallState) : Option (List Bytes × Nat × Bool) :=
  c.writer.map fun x => (x.pending, x.offset, x.writesDone)

theorem queueOf_fail (c : StreamingCallState) (s : Status) : (c.fail s).1.queueOf = c.queueOf :=
  fail_frame (fun _ => rfl) c s

theorem queueOf_onStreamClose (c : StreamingCallState) (errorCode : Nat) :
    (c.onStreamClose errorCode).1.queueOf = c.queueOf := by
  rw [onStreamClose]
  cases hw : c.writer <;> split <;> simp [queueOf, hw]

theorem queueOf_setFinalStatus (c : StreamingCallState) (s : Status) :
    (c.setFinalStatus s).queueOf = c.queueOf := by
  rw [queueOf, queueOf, setFinalStatus, Option.map_map]
  rfl

theorem queueOf_publishError (c : StreamingCallState) (s : Status) :
    (c.publishError s).queueOf = c.queueOf := queueOf_setFinalStatus _ s

theorem queueOf_maybeDeliverStatus (c : StreamingCallState) (s : Status) :
    (c.maybeDeliverStatus s).queueOf = c.queueOf := queueOf_setFinalStatus _ s

theorem queueOf_deliver (c : StreamingCallState) (p : Bytes) :
    (c.deliver p).queueOf = c.queueOf := by
  rw [deliver]
  cases c.reader with
  | some r => rfl
  | none =>
      rw [queueOf, queueOf, Option.map_map]
      rfl

theorem queueOf_onData (c : StreamingCallState) (maxMsgSize : Nat) (chunk : Bytes) :
    (c.onData maxMsgSize chunk).1.queueOf = c.queueOf :=
  onData_frame (fun _ _ => rfl) queueOf_deliver queueOf_fail c maxMsgSize chunk

theorem queueOf_onTrailers (c : StreamingCallState) (trailers : HeaderMap) :
    (c.onTrailers trailers).queueOf = c.queueOf :=
  onTrailers_frame queueOf_maybeDeliverStatus c trailers

theorem queueOf_attach (c : StreamingCallState) (head : ResponseHead) :
    (c.attach head).1.queueOf = c.queueOf :=
  attach_frame queueOf_fail c head

theorem queueOf_runIoc (c : StreamingCallState) (t : IocTask) : (c.runIoc t).queueOf = c.queueOf :=
  runIoc_frame queueOf_publishError queueOf_maybeDeliverStatus (fun _ => rfl) c t

end StreamingCallState

/-- The closures of the writer. -/
def isWriterTask : StrandTask → Bool
  | .enqueue _ | .writesDone => true
  | _ => false

namespace StreamingCall

open StreamingCallState

/-- The writer's queue and its closures are left as they are. -/
structure KeepsQueue (w w' : StreamingCall) : Prop where
  queue : w'.call.queueOf = w.call.queueOf
  tasks : w'.strand.filter isWriterTask = w.strand.filter isWriterTask

theorem keepsQueue_post {w : StreamingCall} {t : StrandTask} (ht : isWriterTask t = false) :
    KeepsQueue w (w.post t) := by
  refine ⟨rfl, ?_⟩
  show (w.strand ++ [t]).filter isWriterTask = _
  rw [List.filter_append]
  simp [ht]

theorem keepsQueue_submit (w : StreamingCall) (o : SubmitOutcome) : KeepsQueue w (w.submit o) := by
  cases o with
  | refused s => exact ⟨w.call.queueOf_fail s, rfl⟩
  | invalid s => exact ⟨w.call.queueOf_fail s, rfl⟩
  | rejected s => exact ⟨w.call.queueOf_fail s, rfl⟩
  | accepted id =>
      refine ⟨?_, rfl⟩
      show (w.call.writer.map fun x => { x with req := some id }).map
        (fun x => (x.pending, x.offset, x.writesDone)) = _
      rw [Option.map_map]
      rfl

theorem keepsQueue_cancelActive (w : StreamingCall) : KeepsQueue w w.cancelActive := by
  rw [cancelActive]
  split
  · exact ⟨w.call.queueOf_fail _, rfl⟩
  · exact ⟨rfl, rfl⟩

theorem keepsQueue_failActive (w : StreamingCall) (s : Status) :
    KeepsQueue w (w.failActive s) := by
  rw [failActive]
  split
  · exact ⟨w.call.queueOf_fail s, rfl⟩
  · exact ⟨rfl, rfl⟩

/-- The closures of the other callbacks do not touch what the writer has to send. -/
theorem keepsQueue_runTask (w : StreamingCall) {t : StrandTask} (ht : isWriterTask t = false) :
    KeepsQueue w (w.runTask t) := by
  cases t with
  | data maxMsgSize chunk => exact ⟨w.call.queueOf_onData _ _, rfl⟩
  | trailers h => exact ⟨w.call.queueOf_onTrailers _, rfl⟩
  | close errorCode => exact ⟨w.call.queueOf_onStreamClose _, rfl⟩
  | enqueue frame => cases ht
  | writesDone => cases ht
  | cancel => exact w.keepsQueue_cancelActive
  | deadline => exact ⟨w.call.queueOf_fail _, rfl⟩

/-- The events of the caller's own stream, up to the closures. -/
def isWriterEvent : CallEvent → Bool
  | .write _ | .writesDone | .poll _ => true
  | _ => false

/-- An event of the others runs a closure of the writer or leaves the queue. -/
theorem other_step {w w' : StreamingCall} {e : CallEvent} (h : w.step e = some w')
    (he : isWriterEvent e = false) :
    KeepsQueue w w' ∨
      ∃ t rest, w.strand = t :: rest ∧ isWriterTask t = true ∧
        w' = { w with strand := rest }.runTask t := by
  cases step_move h with
  | task t rest hs =>
      cases ht : isWriterTask t with
      | true =>
          -- the strand runs its closures in order, so this one is the first of the writer
          exact Or.inr ⟨t, rest, hs, ht, rfl⟩
      | false =>
          have hkeep := keepsQueue_runTask { w with strand := rest } ht
          refine Or.inl ⟨hkeep.queue, ?_⟩
          rw [hkeep.tasks, hs, List.filter_cons_of_neg (by simp [ht])]
  | submit o => exact Or.inl (w.keepsQueue_submit o)
  | response head => exact Or.inl ⟨w.call.queueOf_attach head, rfl⟩
  | noData => exact Or.inl ⟨rfl, rfl⟩
  | data => exact Or.inl (keepsQueue_post rfl)
  | trailers => exact Or.inl ⟨rfl, (keepsQueue_post rfl).tasks⟩
  | close => exact Or.inl ⟨rfl, (keepsQueue_post rfl).tasks⟩
  | ioc i t => exact Or.inl ⟨w.call.queueOf_runIoc t, rfl⟩
  | expire => exact Or.inl ⟨rfl, rfl⟩
  | timerHandler => exact Or.inl ⟨rfl, (keepsQueue_post rfl).tasks⟩
  | noFrame => cases he
  | write => cases he
  | writesDone => cases he
  | poll => cases he
  | read => exact Or.inl ⟨rfl, rfl⟩
  | cancel => exact Or.inl w.keepsQueue_cancelActive
  | postCancel => exact Or.inl (keepsQueue_post rfl)
  | goaway => exact Or.inl (w.keepsQueue_failActive _)
  | spared => exact Or.inl ⟨rfl, rfl⟩
  | shutdown => exact Or.inl (w.keepsQueue_failActive _)

end StreamingCall

end Rpcpio.Client
