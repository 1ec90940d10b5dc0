import Rpcpio.Client.StreamingCall
import Rpcpio.Library.Gate

/-!
# The final status of a streaming call

`closed_`, the closures posted by `Fail` and `OnStreamClose`, and the publications made so far are a
`Library.Gate` of statuses; every event is a move of that gate (`step_gate`). Trailers publish
without closing it, so the outcomes agree as long as nothing calls `Fail` with another status
between the trailers and `on_close` (`AfterTrailers`).

`trailer_budget` counts the deliveries of trailers that are still possible, and `handles` ties the
reader and the writer to the last publication.
-/

set_option autoImplicit false

namespace Rpcpio.Client

open Rpcpio.Library Rpcpio.Protocol

/-- The status that a posted closure will publish whatever happens before it runs. -/
def pendingStatus : IocTask → Option Status
  | .failed s => some s
  | .streamClosed errorCode trailersDone =>
      if trailersDone then none else some (closeStatus errorCode)
  | .trailersOnly _ => none

/-- The status published by an effect. -/
def publishedStatus : Effect → Option Status
  | .published s => some s
  | _ => none

/-- Whether the closure delivers trailers on the strand. -/
def StrandTask.isTrailers : StrandTask → Bool
  | .trailers _ => true
  | _ => false

/-- Whether the closure delivers the trailers of a trailers-only response. -/
def IocTask.isTrailersOnly : IocTask → Bool
  | .trailersOnly _ => true
  | _ => false

namespace StreamingCall

/-- The gate of a call. -/
def gate (w : StreamingCall) : Gate Status :=
  ⟨w.call.closed, w.ioc.filterMap pendingStatus, w.trace.filterMap publishedStatus⟩

/-- The status with which a closure on the strand calls `Fail`. -/
def taskFailStatus (w : StreamingCall) : StrandTask → Option Status
  | .data maxMsgSize chunk =>
      let r := w.call.lpm.feed maxMsgSize chunk
      if r.status.isOk then none else some r.status
  | .cancel => if w.active then some callCancelled else none
  | .deadline => some deadlineExceeded
  | _ => none

/-- The status with which an event calls `Fail`: a failed submission, a rejected response head, an
over-long message, the deadline, a cancellation, a GOAWAY or the shutdown of the channel. -/
def failStatus (w : StreamingCall) : CallEvent → Option Status
  | .submit (.refused s) => some s
  | .submit (.invalid s) => some s
  | .submit (.rejected s) => some s
  | .response head =>
      match headVerdict head with
      | .rejected s => some s
      | _ => none
  | .runStrand => w.strand.head?.bind w.taskFailStatus
  | .cancel true => if w.active then some callCancelled else none
  | .goaway lastStreamId =>
      if w.active && w.streamId.any fun id => lastStreamId < id then
        some (goawayStatus lastStreamId)
      else none
  | .shutdown => if w.active then some channelShutDown else none
  | _ => none

/-! ## Every event is a move of the gate -/

theorem gate_log (w : StreamingCall) (es : List Effect) :
    (w.log es).gate =
      { w.gate with published := w.gate.published ++ es.filterMap publishedStatus } := by
  simp [gate, log, List.filterMap_append]

/-- Calls on the request and reads of the context are no publications. -/
theorem gate_log_request (w : StreamingCall) (rs : List RequestCall) :
    (w.log (rs.map .request)).gate = w.gate := by
  have h : (rs.map Effect.request).filterMap publishedStatus = [] := by
    induction rs with
    | nil => rfl
    | cons r rs ih => simp [publishedStatus]
  simp [gate_log, h]

theorem gate_log_contextReads (w v : StreamingCall) : (w.log v.contextReads).gate = w.gate := by
  have h : v.contextReads.filterMap publishedStatus = [] := by
    simp only [contextReads, Client.contextReads]
    split <;> rfl
  simp [gate_log, h]

/-- `Fail` posts at the gate. -/
theorem gate_fail {w : StreamingCall} {c : StreamingCallState} (s : Status)
    (hc : c.closed = w.call.closed) :
    w.gate.move (.post s) = some (w.after (c.fail s)).gate := by
  simp only [Gate.move, StreamingCallState.fail, hc]
  by_cases h : w.call.closed = true
  · simp [gate, after, h, hc]
  · simp [gate, after, h, List.filterMap_append, pendingStatus]

/-- `OnStreamClose` posts at the gate, or closes it after trailers. -/
theorem gate_onStreamClose (w : StreamingCall) (errorCode : Nat) :
    w.gate.move (if w.call.trailersDone then .shut else .post (closeStatus errorCode)) =
      some (w.after (w.call.onStreamClose errorCode)).gate := by
  by_cases h : w.call.closed = true <;> by_cases ht : w.call.trailersDone = true <;>
    simp [Gate.move, StreamingCallState.onStreamClose, gate, after, h, ht, List.filterMap_append,
      pendingStatus]

theorem closed_foldl_deliver (c : StreamingCallState) (ps : List Bytes) :
    (ps.foldl StreamingCallState.deliver c).closed = c.closed :=
  StreamingCallState.foldl_deliver_frame StreamingCallState.closed_deliver c ps

/-- A data chunk posts at the gate if it is over-long, and else leaves it as it is. -/
theorem gate_onData (w : StreamingCall) (maxMsgSize : Nat) (chunk : Bytes) :
    ∃ m, w.gate.move m = some (w.after (w.call.onData maxMsgSize chunk)).gate ∧
      (∀ a, Gate.offered m = some a → w.taskFailStatus (.data maxMsgSize chunk) = some a) ∧
        ∀ a, m = .post a → a.isOk = false := by
  simp only [StreamingCallState.onData]
  by_cases hc : w.call.closed = true
  · rw [if_pos hc]
    exact ⟨.stay, by simp [Gate.move, gate, after], by simp [Gate.offered], by simp⟩
  · rw [if_neg hc]
    by_cases hok : (w.call.lpm.feed maxMsgSize chunk).status.isOk = true
    · refine ⟨.stay, ?_, by simp [Gate.offered], by simp⟩
      simp [hok, Gate.move, gate, after, closed_foldl_deliver]
    · refine ⟨.post (w.call.lpm.feed maxMsgSize chunk).status, ?_, ?_, ?_⟩
      · simp only [hok]
        exact gate_fail _ (closed_foldl_deliver _ _)
      · intro a ha
        simp only [Gate.offered, Option.some.injEq] at ha
        subst ha
        exact if_neg hok
      · intro a ha
        cases ha
        simpa using hok

/-- `OnGoaway` and `DoShutdown` post at the gate if the stream is active. -/
theorem gate_failActive (w : StreamingCall) {s : Status} (hs : s.isOk = false) :
    ∃ m, w.gate.move m = some (w.failActive s).gate ∧
      (∀ a, Gate.offered m = some a → w.active = true ∧ a = s) ∧
        ∀ a, m = .post a → a.isOk = false := by
  simp only [failActive]
  by_cases ha : w.active = true
  · rw [if_pos ha]
    refine ⟨.post s, gate_fail (w := { w with active := false }) s rfl, fun a h => ⟨ha, ?_⟩, ?_⟩
    · simpa [Gate.offered, eq_comm] using h
    · intro a h
      cases h
      exact hs
  · rw [if_neg ha]
    exact ⟨.stay, rfl, by simp [Gate.offered], by simp⟩

/-- The closure of the cancellation slot posts at the gate if the stream is active. -/
theorem gate_cancelActive (w : StreamingCall) :
    ∃ m, w.gate.move m = some w.cancelActive.gate ∧
      (∀ a, Gate.offered m = some a → w.active = true ∧ a = callCancelled) ∧
        ∀ a, m = .post a → a.isOk = false := by
  simp only [cancelActive]
  by_cases ha : w.active = true
  · rw [if_pos ha]
    refine ⟨.post callCancelled, ?_, fun a h => ⟨ha, ?_⟩, ?_⟩
    · have h := gate_fail (w := w.log [.request .cancel]) (c := w.call) callCancelled rfl
      rwa [show (w.log [.request .cancel]).gate = w.gate from gate_log_request w [.cancel]] at h
    · simpa [Gate.offered, eq_comm] using h
    · intro a h
      cases h
      rfl
  · rw [if_neg ha]
    exact ⟨.stay, rfl, by simp [Gate.offered], by simp⟩

/-- The closures on the strand are moves of the gate. -/
theorem gate_runTask (w : StreamingCall) (t : StrandTask) :
    ∃ m, w.gate.move m = some (w.runTask t).gate ∧
      (∀ a, Gate.offered m = some a →
        w.taskFailStatus t = some a ∨ w.call.trailersDone = false ∨ ∃ h, t = .trailers h) ∧
        ∀ a, m = .post a → a.isOk = false := by
  cases t with
  | data maxMsgSize chunk =>
      obtain ⟨m, hm, ho, hok⟩ := gate_onData w maxMsgSize chunk
      exact ⟨m, hm, fun a ha => Or.inl (ho a ha), hok⟩
  | trailers h =>
      refine ⟨.announce (extractTrailerStatus h), ?_, fun a _ => Or.inr (Or.inr ⟨h, rfl⟩), by simp⟩
      by_cases hc : w.call.closed = true <;>
        simp [Gate.move, runTask, log, StreamingCallState.onTrailers, gate, hc, publishedStatus,
          StreamingCallState.maybeDeliverStatus, StreamingCallState.setFinalStatus]
  | close errorCode =>
      refine ⟨_, gate_onStreamClose { w with active := false } errorCode, ?_, ?_⟩
      · intro a ha
        refine Or.inr (Or.inl ?_)
        -- after the trailers the close only shuts the gate
        by_cases ht : w.call.trailersDone = true
        · simp [ht, Gate.offered] at ha
        · simpa using ht
      · intro a ha
        by_cases ht : w.call.trailersDone = true
        · simp [ht] at ha
        · simp only [ht] at ha
          cases ha
          exact closeStatus_not_ok errorCode
  | enqueue frame =>
      refine ⟨.stay, ?_, by simp [Gate.offered], by simp⟩
      simp only [Gate.move, runTask, onWriter]
      cases w.call.writer with
      | none => rfl
      | some x => simp only [gate_log_request]; rfl
  | writesDone =>
      refine ⟨.stay, ?_, by simp [Gate.offered], by simp⟩
      simp only [Gate.move, runTask, onWriter]
      cases w.call.writer with
      | none => rfl
      | some x => simp only [gate_log_request]; rfl
  | cancel =>
      obtain ⟨m, hm, ho, hok⟩ := gate_cancelActive w
      refine ⟨m, hm, fun a ha => Or.inl ?_, hok⟩
      obtain ⟨hact, rfl⟩ := ho a ha
      simp [taskFailStatus, hact]
  | deadline =>
      refine ⟨.post deadlineExceeded, gate_fail _ rfl, ?_, ?_⟩
      · intro a h
        exact Or.inl (by simpa [taskFailStatus, Gate.offered] using h)
      · intro a h
        cases h
        rfl

/-- A closure of the `io_context` delivers its outcome, concludes, or does nothing. -/
theorem gate_runIoc {w : StreamingCall} {i : Nat} {t : IocTask} (hi : w.ioc[i]? = some t) :
    ∃ m, w.gate.move m =
        some ({ w with call := w.call.runIoc t, ioc := w.ioc.eraseIdx i }.log
          (iocEffects w.call t)).gate ∧
      (∀ a, Gate.offered m = some a → t = .trailersOnly a) ∧
        ∀ a, m = .post a → a.isOk = false := by
  cases t with
  | failed s =>
      obtain ⟨j, hj, he⟩ := filterMap_eraseIdx_some (f := pendingStatus) (a := s) hi rfl
      refine ⟨.deliver j, ?_, by simp [Gate.offered], by simp⟩
      simp [Gate.move, gate, log, hj, he, iocEffects, publishedStatus, StreamingCallState.runIoc,
        StreamingCallState.publishError, StreamingCallState.setFinalStatus]
  | streamClosed errorCode trailersDone =>
      cases trailersDone with
      | true =>
          have he := filterMap_eraseIdx_none (f := pendingStatus) hi rfl
          refine ⟨.stay, ?_, by simp [Gate.offered], by simp⟩
          simp [Gate.move, gate, log, he, iocEffects, StreamingCallState.runIoc]
      | false =>
          obtain ⟨j, hj, he⟩ :=
            filterMap_eraseIdx_some (f := pendingStatus) (a := closeStatus errorCode) hi rfl
          refine ⟨.deliver j, ?_, by simp [Gate.offered], by simp⟩
          simp [Gate.move, gate, log, hj, he, iocEffects, publishedStatus,
            StreamingCallState.runIoc, StreamingCallState.publishError,
            StreamingCallState.setFinalStatus]
  | trailersOnly s =>
      have he := filterMap_eraseIdx_none (f := pendingStatus) hi rfl
      refine ⟨.conclude s, ?_, fun a ha => by simpa [Gate.offered] using ha, by simp⟩
      by_cases hc : w.call.closed = true <;>
        simp [Gate.move, gate, log, he, iocEffects, hc, publishedStatus,
          StreamingCallState.runIoc, StreamingCallState.maybeDeliverStatus,
          StreamingCallState.setFinalStatus]

/-- The next delivery of trailers that the step performs. -/
def DeliversTrailers (w : StreamingCall) (e : CallEvent) : Prop :=
  (e = .runStrand ∧ ∃ h, w.strand.head? = some (.trailers h)) ∨
    ∃ i s, e = .runIoc i ∧ w.ioc[i]? = some (.trailersOnly s)

/-- **Every event is a move of the gate**, and what it offers comes from `Fail`, from a close
without trailers, or from trailers. -/
theorem step_gate {w w' : StreamingCall} {e : CallEvent} (h : w.step e = some w') :
    ∃ m, w.gate.move m = some w'.gate ∧
      (∀ a, Gate.offered m = some a →
        w.failStatus e = some a ∨ w.call.trailersDone = false ∨ w.DeliversTrailers e) ∧
        ∀ a, m = .post a → a.isOk = false := by
  have hstay : w'.gate = w.gate → ∃ m, w.gate.move m = some w'.gate ∧
      (∀ a, Gate.offered m = some a →
        w.failStatus e = some a ∨ w.call.trailersDone = false ∨ w.DeliversTrailers e) ∧
        ∀ a, m = .post a → a.isOk = false :=
    fun hg => ⟨.stay, by rw [hg]; rfl, by simp [Gate.offered], by simp⟩
  have hpost : ∀ {s : Status},
      s.isOk = false → ∀ a, GateMove.post s = .post a → a.isOk = false := by
    intro s hs a ha
    cases ha
    exact hs
  cases step_move h with
  | submit o _ hvalid =>
      have hreads : ({ w with submitted := true }.log w.contextReads).gate = w.gate :=
        gate_log_contextReads _ w
      cases o with
      | refused s =>
          exact ⟨.post s, gate_fail s rfl, fun a ha => Or.inl ha,
            hpost (by simpa [SubmitOutcome.isValid] using hvalid)⟩
      | invalid s =>
          refine ⟨.post s, ?_, fun a ha => Or.inl ha,
            hpost (by simpa [SubmitOutcome.isValid] using hvalid)⟩
          rw [← hreads]
          exact gate_fail s rfl
      | rejected s =>
          refine ⟨.post s, ?_, fun a ha => Or.inl ha,
            hpost (by simpa [SubmitOutcome.isValid] using hvalid)⟩
          rw [← hreads]
          exact gate_fail s rfl
      | accepted id =>
          apply hstay
          simp only [submit, gate_log_contextReads]
          rfl
  | response head =>
      cases hv : headVerdict head with
      | rejected s =>
          refine ⟨.post s, ?_, fun a ha => Or.inl ?_, hpost (headVerdict_rejected_not_ok hv)⟩
          · rw [gate_fail (c := w.call) s rfl]
            simp [onResponse, StreamingCallState.attach, hv, gate, after, log]
          · simpa [failStatus, hv, Gate.offered] using ha
      | trailersOnly s =>
          apply hstay
          simp [onResponse, StreamingCallState.attach, hv, gate, after, log, pendingStatus,
            List.filterMap_append]
      | accepted =>
          apply hstay
          simp only [onResponse, StreamingCallState.attach, hv, Option.isSome_some, if_true,
            gate_log_contextReads]
          simp [gate, after]
  | close errorCode =>
      apply hstay
      simp [gate, post, log, publishedStatus]
  | task t rest hs =>
      obtain ⟨m, hm, ho, hok⟩ := gate_runTask { w with strand := rest } t
      refine ⟨m, hm, fun a ha => ?_, hok⟩
      rcases ho a ha with hf | hd | ⟨hd, rfl⟩
      · left
        show w.strand.head?.bind w.taskFailStatus = some a
        rw [hs]
        exact hf
      · exact Or.inr (Or.inl hd)
      · exact Or.inr (Or.inr (Or.inl ⟨rfl, hd, by rw [hs]; rfl⟩))
  | ioc i t hi =>
      obtain ⟨m, hm, ho, hok⟩ := gate_runIoc hi
      exact ⟨m, hm, fun a ha => Or.inr (Or.inr (Or.inr ⟨i, a, rfl, ho a ha ▸ hi⟩)), hok⟩
  | cancel =>
      obtain ⟨m, hm, ho, hok⟩ := gate_cancelActive w
      refine ⟨m, hm, fun a ha => Or.inl ?_, hok⟩
      obtain ⟨hact, rfl⟩ := ho a ha
      simp [failStatus, hact]
  | goaway lastStreamId id hid hlt =>
      obtain ⟨m, hm, ho, hok⟩ := gate_failActive w (s := goawayStatus lastStreamId) rfl
      refine ⟨m, hm, fun a ha => Or.inl ?_, hok⟩
      obtain ⟨hact, rfl⟩ := ho a ha
      simp [failStatus, hact, hid, hlt]
  | shutdown =>
      obtain ⟨m, hm, ho, hok⟩ := gate_failActive w (s := channelShutDown) rfl
      refine ⟨m, hm, fun a ha => Or.inl ?_, hok⟩
      obtain ⟨hact, rfl⟩ := ho a ha
      simp [failStatus, hact]
  -- the other events only post to the strand or change a handle or the timer
  | _ => exact hstay rfl

/-! ## What the handles show -/

end StreamingCall

namespace StreamingCallState

/-- What the handles show of the final status: `Finish` of each, and the queue's error and
end-of-stream. -/
def statusView (c : StreamingCallState) :
    Option (Option Status × Option Status × Bool) × Option (Option Status) :=
  (c.reader.map fun r => (r.finish, r.msgQueue.error, r.msgQueue.eos),
    c.writer.map fun x => x.finish)

/-- All handles show `s`, or no status yet. -/
def Shows (c : StreamingCallState) (s : Option Status) : Prop :=
  (∀ v, c.statusView.1 = some v → v = (s, s.filter fun s => !s.isOk, s.any Status.isOk)) ∧
    ∀ v, c.statusView.2 = some v → v = s

theorem Shows.congr {c c' : StreamingCallState} {s : Option Status} (h : c.Shows s)
    (hv : c'.statusView = c.statusView) : c'.Shows s := by
  simp only [Shows]
  rw [hv]
  exact h

/-- A change of the writer that keeps its final status. -/
theorem statusView_mapWriter (c : StreamingCallState)
    {f : RawClientWriterImpl → RawClientWriterImpl} (hf : ∀ x, (f x).finish = x.finish) :
    { c with writer := c.writer.map f }.statusView = c.statusView := by
  cases hw : c.writer <;> simp [statusView, hw, hf]

@[simp] theorem statusView_fail (c : StreamingCallState) (s : Status) :
    (c.fail s).1.statusView = c.statusView :=
  fail_frame (fun _ => rfl) c s

@[simp] theorem statusView_onStreamClose (c : StreamingCallState) (errorCode : Nat) :
    (c.onStreamClose errorCode).1.statusView = c.statusView := by
  simp only [onStreamClose]
  cases hw : c.writer <;> simp only [Option.map] <;> split <;> simp [statusView, hw] <;> rfl

@[simp] theorem statusView_armTimer (c : StreamingCallState) :
    c.armTimer.statusView = c.statusView := rfl

theorem statusView_deliver (c : StreamingCallState) (p : Bytes) :
    (c.deliver p).statusView = c.statusView := by
  simp only [deliver]
  split
  · rename_i r hr
    simp [statusView, hr, RawClientReaderImpl.finish]
  · cases hw : c.writer <;> simp [statusView, hw, RawClientWriterImpl.finish]

theorem statusView_foldl_deliver (c : StreamingCallState) (ps : List Bytes) :
    (ps.foldl deliver c).statusView = c.statusView :=
  foldl_deliver_frame statusView_deliver c ps

@[simp] theorem statusView_onData (c : StreamingCallState) (maxMsgSize : Nat) (chunk : Bytes) :
    (c.onData maxMsgSize chunk).1.statusView = c.statusView :=
  onData_frame (fun _ _ => rfl) statusView_deliver statusView_fail c maxMsgSize chunk

@[simp] theorem statusView_attach (c : StreamingCallState) (head : ResponseHead) :
    (c.attach head).1.statusView = c.statusView :=
  attach_frame statusView_fail c head

/-- Publishing an error on handles that show nothing, or the same error. -/
theorem shows_publishError {c : StreamingCallState} {s : Status} (hs : s.isOk = false)
    (h : c.Shows none ∨ c.Shows (some s)) : (c.publishError s).Shows (some s) := by
  have heos : ∀ r, c.reader = some r → r.msgQueue.eos = false := by
    intro r hr
    rcases h with h | h
    · have hv := h.1 (r.finish, r.msgQueue.error, r.msgQueue.eos) (by simp [statusView, hr])
      simp only [Prod.mk.injEq] at hv
      exact hv.2.2
    · have hv := h.1 (r.finish, r.msgQueue.error, r.msgQueue.eos) (by simp [statusView, hr])
      simp only [Prod.mk.injEq] at hv
      simpa [hs] using hv.2.2
  constructor
  · intro v hv
    cases hr : c.reader with
    | none => simp [statusView, publishError, setFinalStatus, hr] at hv
    | some r =>
        have he := heos r hr
        simp [statusView, publishError, setFinalStatus, hr, RawClientReaderImpl.setFinalStatus,
          RawClientReaderImpl.finish, he] at hv
        simp [← hv, Option.filter, hs]
  · intro v hv
    cases hw : c.writer with
    | none => simp [statusView, publishError, setFinalStatus, hw] at hv
    | some x =>
        simp [statusView, publishError, setFinalStatus, hw, RawClientWriterImpl.setFinalStatus,
          RawClientWriterImpl.finish] at hv
        exact hv.symm

/-- Delivering trailers on handles that show nothing. -/
theorem shows_maybeDeliverStatus {c : StreamingCallState} {s : Status} (h : c.Shows none) :
    (c.maybeDeliverStatus s).Shows (some s) := by
  constructor
  · intro v hv
    cases hr : c.reader with
    | none => simp [statusView, maybeDeliverStatus, setFinalStatus, hr] at hv
    | some r =>
        have hn := h.1 (r.finish, r.msgQueue.error, r.msgQueue.eos) (by simp [statusView, hr])
        simp only [Prod.mk.injEq] at hn
        obtain ⟨_, herr, heos⟩ := hn
        by_cases hs : s.isOk = true
        · simp [statusView, maybeDeliverStatus, setFinalStatus, hr,
            RawClientReaderImpl.setFinalStatus, RawClientReaderImpl.finish, hs, herr] at hv
          simp [← hv, Option.filter, hs]
        · simp [statusView, maybeDeliverStatus, setFinalStatus, hr,
            RawClientReaderImpl.setFinalStatus, RawClientReaderImpl.finish, hs, heos] at hv
          simp [← hv, Option.filter, hs]
  · intro v hv
    cases hw : c.writer with
    | none => simp [statusView, maybeDeliverStatus, setFinalStatus, hw] at hv
    | some x =>
        simp [statusView, maybeDeliverStatus, setFinalStatus, hw,
          RawClientWriterImpl.setFinalStatus, RawClientWriterImpl.finish] at hv
        exact hv.symm

end StreamingCallState

namespace StreamingCallState

@[simp] theorem trailersDone_fail (c : StreamingCallState) (s : Status) :
    (c.fail s).1.trailersDone = c.trailersDone := by
  simp only [fail]
  split <;> rfl

@[simp] theorem trailersDone_onStreamClose (c : StreamingCallState) (errorCode : Nat) :
    (c.onStreamClose errorCode).1.trailersDone = c.trailersDone := by
  unfold onStreamClose
  dsimp only
  split <;> rfl

@[simp] theorem trailersDone_armTimer (c : StreamingCallState) :
    c.armTimer.trailersDone = c.trailersDone := rfl

theorem trailersDone_foldl_deliver (c : StreamingCallState) (ps : List Bytes) :
    (ps.foldl deliver c).trailersDone = c.trailersDone :=
  foldl_deliver_frame trailersDone_deliver c ps

@[simp] theorem trailersDone_onData (c : StreamingCallState) (maxMsgSize : Nat) (chunk : Bytes) :
    (c.onData maxMsgSize chunk).1.trailersDone = c.trailersDone :=
  onData_frame (fun _ _ => rfl) trailersDone_deliver trailersDone_fail c maxMsgSize chunk

/-- `Fail`, `OnStreamClose` and the data callback post no trailers-only closure. -/
@[simp] theorem trailersOnly_fail (c : StreamingCallState) (s : Status) :
    (c.fail s).2.countP IocTask.isTrailersOnly = 0 := by
  simp only [fail]
  split <;> rfl

@[simp] theorem trailersOnly_onStreamClose (c : StreamingCallState) (errorCode : Nat) :
    (c.onStreamClose errorCode).2.countP IocTask.isTrailersOnly = 0 := by
  unfold onStreamClose
  dsimp only
  split <;> rfl

@[simp] theorem trailersOnly_onData (c : StreamingCallState) (maxMsgSize : Nat) (chunk : Bytes) :
    (c.onData maxMsgSize chunk).2.countP IocTask.isTrailersOnly = 0 := by
  unfold onData
  split
  · rfl
  · dsimp only
    split
    · rfl
    · exact trailersOnly_fail _ _

end StreamingCallState

namespace StreamingCall

/-- How many deliveries of trailers are done, posted or still possible. -/
def trailerBudget (w : StreamingCall) : Nat :=
  w.strand.countP StrandTask.isTrailers + w.ioc.countP IocTask.isTrailersOnly +
    w.call.trailersDone.toNat +
    (if !w.headersArrived || (w.dataLimit.isSome && !w.trailersArrived) then 1 else 0)

/-- Callbacks for data and trailers are registered by `Attach` only. -/
def Registered (w : StreamingCall) : Prop := w.dataLimit.isSome = true → w.headersArrived = true

/-- The writer closures leave everything but the writer and the trace. -/
theorem onWriter_frame (w : StreamingCall)
    (f : RawClientWriterImpl → RawClientWriterImpl × List RequestCall) :
    (w.onWriter f).strand = w.strand ∧ (w.onWriter f).ioc = w.ioc ∧
      (w.onWriter f).call.trailersDone = w.call.trailersDone ∧
      (w.onWriter f).headersArrived = w.headersArrived ∧
      (w.onWriter f).dataLimit = w.dataLimit ∧
      (w.onWriter f).trailersArrived = w.trailersArrived := by
  simp only [onWriter]
  split <;> exact ⟨rfl, rfl, rfl, rfl, rfl, rfl⟩

/-- A closure on the strand delivers trailers if it is one of theirs, and posts none. -/
theorem trailerBudget_runTask (w : StreamingCall) (t : StrandTask) :
    (w.runTask t).trailerBudget ≤ w.trailerBudget + (if t.isTrailers then 1 else 0) := by
  cases t with
  | data maxMsgSize chunk => simp [runTask, after, trailerBudget, StrandTask.isTrailers]
  | trailers h =>
      by_cases hc : w.call.closed = true
      · simp [runTask, log, StreamingCallState.onTrailers, trailerBudget, hc]
      · have hle : w.call.trailersDone.toNat ≤ 1 := Bool.toNat_le _
        simp [runTask, log, StreamingCallState.onTrailers, trailerBudget, hc,
          StreamingCallState.maybeDeliverStatus, StreamingCallState.setFinalStatus,
          StrandTask.isTrailers]
        omega
  | close errorCode => simp [runTask, after, trailerBudget, StrandTask.isTrailers]
  | enqueue frame =>
      obtain ⟨h1, h2, h3, h4, h5, h6⟩ := onWriter_frame w fun x => x.enqueueOnStrand frame
      simp only [runTask, trailerBudget, h1, h2, h3, h4, h5, h6]
      omega
  | writesDone =>
      obtain ⟨h1, h2, h3, h4, h5, h6⟩ := onWriter_frame w fun x => x.writesDoneOnStrand
      simp only [runTask, trailerBudget, h1, h2, h3, h4, h5, h6]
      omega
  | cancel =>
      simp only [runTask, cancelActive]
      split <;> simp [after, log, trailerBudget, StreamingCallState.cancel, StrandTask.isTrailers]
  | deadline => simp [runTask, after, trailerBudget, StrandTask.isTrailers]

theorem registered_runTask {w : StreamingCall} (h : w.Registered) (t : StrandTask) :
    (w.runTask t).Registered := by
  cases t with
  | enqueue frame =>
      obtain ⟨_, _, _, h4, h5, _⟩ := onWriter_frame w fun x => x.enqueueOnStrand frame
      simpa only [Registered, runTask, h4, h5] using h
  | writesDone =>
      obtain ⟨_, _, _, h4, h5, _⟩ := onWriter_frame w fun x => x.writesDoneOnStrand
      simpa only [Registered, runTask, h4, h5] using h
  | cancel =>
      simp only [runTask, cancelActive]
      split <;> exact h
  | _ => exact h

theorem registered_failActive {w : StreamingCall} (h : w.Registered) (s : Status) :
    (w.failActive s).Registered := by
  simp only [failActive]
  split <;> exact h

theorem trailerBudget_failActive (w : StreamingCall) (s : Status) :
    (w.failActive s).trailerBudget ≤ w.trailerBudget := by
  simp only [failActive]
  split
  · simp [after, trailerBudget]
  · exact Nat.le_refl _

/-- **No event adds to the trailers still to be delivered.** -/
theorem step_trailerBudget {w w' : StreamingCall} {e : CallEvent} (hreg : w.Registered)
    (h : w.step e = some w') : w'.Registered ∧ w'.trailerBudget ≤ w.trailerBudget := by
  have hposted : ∀ {t : StrandTask}, t.isTrailers = false →
      (w.post t).Registered ∧ (w.post t).trailerBudget ≤ w.trailerBudget := by
    intro t ht
    refine ⟨hreg, ?_⟩
    simp [post, trailerBudget, ht]
  cases step_move h with
  | submit o =>
      constructor
      · cases o <;> exact hreg
      · cases o <;> simp [submit, after, log, trailerBudget]
  -- a head that is a status of its own uses the budget of the trailers
  | response head _ hfirst =>
      refine ⟨fun _ => rfl, ?_⟩
      cases hv : headVerdict head with
      | rejected s =>
          simp [onResponse, StreamingCallState.attach, hv, after, log, trailerBudget, hfirst]
      | trailersOnly s =>
          simp [onResponse, StreamingCallState.attach, hv, after, log, trailerBudget, hfirst,
            IocTask.isTrailersOnly]
          omega
      | accepted =>
          simp [onResponse, StreamingCallState.attach, hv, after, log, trailerBudget, hfirst]
          split <;> omega
  | data maxMsgSize chunk => exact hposted rfl
  -- the trailers are queued once
  | trailers hd hlimit hfirst =>
      refine ⟨hreg, ?_⟩
      simp [post, trailerBudget, StrandTask.isTrailers, hlimit, hfirst, hreg hlimit]
      omega
  | close errorCode => exact ⟨hreg, by simp [post, log, trailerBudget, StrandTask.isTrailers]⟩
  | task t rest hs =>
      refine ⟨registered_runTask (w := { w with strand := rest }) hreg t, ?_⟩
      apply Nat.le_trans (trailerBudget_runTask { w with strand := rest } t)
      simp only [trailerBudget, hs, List.countP_cons]
      omega
  -- the closure that runs is no longer counted
  | ioc i t hi =>
      refine ⟨hreg, ?_⟩
      have hc := countP_eraseIdx_add (p := IocTask.isTrailersOnly) hi
      cases t with
      | failed s =>
          simp [log, trailerBudget, StreamingCallState.runIoc, StreamingCallState.publishError,
            StreamingCallState.setFinalStatus]
          simp [IocTask.isTrailersOnly] at hc
          omega
      | streamClosed errorCode trailersDone =>
          simp [IocTask.isTrailersOnly] at hc
          cases trailersDone <;>
            simp [log, trailerBudget, StreamingCallState.runIoc,
              StreamingCallState.publishError, StreamingCallState.setFinalStatus] <;>
            omega
      | trailersOnly s =>
          simp [IocTask.isTrailersOnly] at hc
          have hle : w.call.trailersDone.toNat ≤ 1 := Bool.toNat_le _
          by_cases hcl : w.call.closed = true <;>
            simp [log, trailerBudget, StreamingCallState.runIoc, hcl,
              StreamingCallState.maybeDeliverStatus, StreamingCallState.setFinalStatus] <;>
            omega
  | timerHandler t => exact ⟨hreg, by simp [post, trailerBudget, StrandTask.isTrailers]⟩
  | write payload frame => exact hposted rfl
  | writesDone => exact hposted rfl
  | cancel =>
      simp only [cancelActive]
      split
      · exact ⟨hreg, by simp [after, log, trailerBudget, StreamingCallState.cancel]⟩
      · exact ⟨hreg, Nat.le_refl _⟩
  | postCancel => exact hposted rfl
  | goaway lastStreamId => exact ⟨registered_failActive hreg _, trailerBudget_failActive w _⟩
  | shutdown => exact ⟨registered_failActive hreg _, trailerBudget_failActive w _⟩
  | _ => exact ⟨hreg, Nat.le_refl _⟩

/-- The status that an event publishes, if any, comes from a posted closure or from trailers. -/
inductive StatusStep (w w' : StreamingCall) (e : CallEvent) : Prop
  | quiet (hview : w'.call.statusView = w.call.statusView)
      (hpub : w'.gate.published = w.gate.published)
      (hdone : w'.call.trailersDone = w.call.trailersDone)
  | posted (s : Status) (hmem : s ∈ w.gate.posted)
      (hview : w'.call.statusView = (w.call.publishError s).statusView)
      (hpub : w'.gate.published = w.gate.published ++ [s])
  | trailers (s : Status) (hdel : w.DeliversTrailers e) (hopen : w.call.closed = false)
      (hview : w'.call.statusView = (w.call.maybeDeliverStatus s).statusView)
      (hpub : w'.gate.published = w.gate.published ++ [s])
      (hdone : w'.call.trailersDone = true)

theorem published_log_quiet (w : StreamingCall) {es : List Effect}
    (h : es.filterMap publishedStatus = []) : (w.log es).gate.published = w.gate.published := by
  simp [gate_log, h]

theorem contextReads_quiet (w : StreamingCall) : w.contextReads.filterMap publishedStatus = [] := by
  simp only [contextReads, Client.contextReads]
  split <;> rfl

/-- The writer closures publish nothing and do not touch what the handles show. -/
theorem onWriter_quiet (w : StreamingCall)
    {f : RawClientWriterImpl → RawClientWriterImpl × List RequestCall}
    (hf : ∀ x, (f x).1.finish = x.finish) :
    (w.onWriter f).call.statusView = w.call.statusView ∧
      (w.onWriter f).gate.published = w.gate.published := by
  simp only [onWriter]
  cases hw : w.call.writer with
  | none => exact ⟨rfl, rfl⟩
  | some x =>
      refine ⟨?_, ?_⟩
      · simp [log, StreamingCallState.statusView, hw, hf]
      · simp only [gate_log_request]
        rfl

theorem failActive_quiet (w : StreamingCall) (s : Status) :
    (w.failActive s).call.statusView = w.call.statusView ∧
      (w.failActive s).gate.published = w.gate.published ∧
      (w.failActive s).call.trailersDone = w.call.trailersDone := by
  simp only [failActive]
  split
  · simp [after, gate]
  · exact ⟨rfl, rfl, rfl⟩

theorem cancelActive_quiet (w : StreamingCall) :
    w.cancelActive.call.statusView = w.call.statusView ∧
      w.cancelActive.gate.published = w.gate.published ∧
      w.cancelActive.call.trailersDone = w.call.trailersDone := by
  unfold cancelActive
  split
  · simp [after, log, gate, StreamingCallState.cancel, publishedStatus]
  · exact ⟨rfl, rfl, rfl⟩

/-- What a step does to the final status. -/
theorem step_status {w w' : StreamingCall} {e : CallEvent} (h : w.step e = some w') :
    StatusStep w w' e := by
  cases step_move h with
  | submit o =>
      cases o with
      | refused s => exact .quiet (by simp [submit, after]) rfl (by simp [submit, after])
      | invalid s =>
          exact .quiet (by simp [submit, after, log])
            (published_log_quiet _ (contextReads_quiet w)) (by simp [submit, after, log])
      | rejected s =>
          exact .quiet (by simp [submit, after, log])
            (published_log_quiet _ (contextReads_quiet w)) (by simp [submit, after, log])
      | accepted id =>
          refine .quiet ?_ (published_log_quiet _ (contextReads_quiet w)) (by simp [submit, log])
          simp only [submit, log, StreamingCallState.statusView_armTimer]
          exact StreamingCallState.statusView_mapWriter w.call fun _ => rfl
  | response head =>
      refine .quiet (by simp [onResponse, after, log]) ?_ ?_
      · apply published_log_quiet
        split
        · exact contextReads_quiet w
        · rfl
      · cases hv : headVerdict head <;>
          simp [onResponse, after, log, StreamingCallState.attach, hv]
  | close errorCode =>
      exact .quiet rfl (published_log_quiet { w with sessionClosed := true } rfl) rfl
  | task t rest hs =>
      cases t with
      | data maxMsgSize chunk =>
          exact .quiet (by simp [runTask, after]) rfl (by simp [runTask, after])
      -- the only closure on the strand that publishes
      | trailers hd =>
          by_cases hc : w.call.closed = true
          · refine .quiet ?_ ?_ ?_ <;>
              simp [runTask, log, gate, StreamingCallState.onTrailers, hc]
          · refine .trailers (extractTrailerStatus hd) (Or.inl ⟨rfl, hd, by rw [hs]; rfl⟩)
              (by simpa using hc) ?_ ?_ ?_ <;>
              simp [runTask, log, gate, StreamingCallState.onTrailers, hc, publishedStatus,
                StreamingCallState.maybeDeliverStatus, StreamingCallState.setFinalStatus]
      | close errorCode =>
          exact .quiet (by simp [runTask, after]) rfl (by simp [runTask, after])
      | enqueue frame =>
          have hq := onWriter_quiet { w with strand := rest }
            (f := fun x => x.enqueueOnStrand frame) fun _ => rfl
          exact .quiet hq.1 hq.2 (onWriter_frame { w with strand := rest } _).2.2.1
      | writesDone =>
          have hq := onWriter_quiet { w with strand := rest }
            (f := fun x => x.writesDoneOnStrand) fun _ => rfl
          exact .quiet hq.1 hq.2 (onWriter_frame { w with strand := rest } _).2.2.1
      | cancel =>
          obtain ⟨h1, h2, h3⟩ := cancelActive_quiet { w with strand := rest }
          exact .quiet h1 h2 h3
      | deadline => exact .quiet (by simp [runTask, after]) rfl (by simp [runTask, after])
  | ioc i t hi =>
      have hmem : t ∈ w.ioc := List.mem_of_getElem? hi
      cases t with
      -- the failure posted with its status
      | failed s =>
          refine .posted s (List.mem_filterMap.2 ⟨_, hmem, rfl⟩) rfl ?_
          simp [gate, log, iocEffects, publishedStatus]
      | streamClosed errorCode trailersDone =>
          -- after its trailers a closed stream has its status
          cases trailersDone with
          | true => exact .quiet rfl (by simp [gate, log, iocEffects]) rfl
          | false =>
              refine .posted (closeStatus errorCode)
                (List.mem_filterMap.2 ⟨_, hmem, rfl⟩) rfl ?_
              simp [gate, log, iocEffects, publishedStatus]
      | trailersOnly s =>
          by_cases hc : w.call.closed = true
          · refine .quiet ?_ ?_ ?_ <;>
              simp [gate, log, iocEffects, StreamingCallState.runIoc, hc]
          · refine .trailers s (Or.inr ⟨i, s, rfl, hi⟩) (by simpa using hc) ?_ ?_ ?_
            · simp only [log, StreamingCallState.runIoc, hc]
              rfl
            · simp [gate, log, iocEffects, hc, publishedStatus]
            · simp [log, StreamingCallState.runIoc, hc, StreamingCallState.maybeDeliverStatus,
                StreamingCallState.setFinalStatus]
  | poll len =>
      exact .quiet (StreamingCallState.statusView_mapWriter w.call fun x =>
        x.finish_clientWriterGenerator len) rfl rfl
  | read r hr =>
      refine .quiet ?_ rfl rfl
      simp [StreamingCallState.statusView, hr, RawClientReaderImpl.read, RawClientReaderImpl.finish]
  | cancel =>
      obtain ⟨h1, h2, h3⟩ := cancelActive_quiet w
      exact .quiet h1 h2 h3
  | goaway lastStreamId =>
      obtain ⟨h1, h2, h3⟩ := failActive_quiet w (goawayStatus lastStreamId)
      exact .quiet h1 h2 h3
  | shutdown =>
      obtain ⟨h1, h2, h3⟩ := failActive_quiet w channelShutDown
      exact .quiet h1 h2 h3
  | _ => exact .quiet rfl rfl rfl

/-! ## The invariant -/

/-- The condition on a step under which a published status stands: while trailers have been
delivered and the stream is not closed, nothing calls `Fail` with another status. -/
def AfterTrailers (w : StreamingCall) (e : CallEvent) : Prop :=
  w.call.trailersDone = true → w.call.closed = false →
    ∀ s ∈ w.failStatus e, ∀ p ∈ w.gate.published, p = s

instance (w : StreamingCall) (e : CallEvent) : Decidable (w.AfterTrailers e) :=
  inferInstanceAs (Decidable (_ → _ → ∀ s ∈ w.failStatus e, ∀ p ∈ w.gate.published, p = s))

/-- What every run whose steps meet `AfterTrailers` preserves. -/
structure StatusInvariant (w : StreamingCall) : Prop where
  registered : w.Registered
  budget : w.trailerBudget ≤ 1
  agreed : w.gate.Agreed
  errors : ∀ s ∈ w.gate.posted, s.isOk = false
  silent : w.call.closed = false → w.call.trailersDone = false → w.gate.published = []
  shows : w.call.Shows w.gate.published.getLast?

/-- Trailers are delivered once. -/
theorem deliversTrailers_first {w : StreamingCall} {e : CallEvent} (hb : w.trailerBudget ≤ 1)
    (hd : w.DeliversTrailers e) : w.call.trailersDone = false := by
  rcases hd with ⟨_, h, hh⟩ | ⟨i, s, _, hi⟩
  · obtain ⟨rest, hs⟩ : ∃ rest, w.strand = .trailers h :: rest := by
      cases hs : w.strand with
      | nil => simp [hs] at hh
      | cons t rest =>
          rw [hs] at hh
          simp only [List.head?_cons, Option.some.injEq] at hh
          exact ⟨rest, by rw [hh]⟩
    have hc : 0 < w.strand.countP StrandTask.isTrailers := by
      rw [hs, List.countP_cons]
      simp [StrandTask.isTrailers]
    unfold trailerBudget at hb
    cases ht : w.call.trailersDone with
    | false => rfl
    | true =>
        rw [ht, Bool.toNat_true] at hb
        omega
  · have hc : 0 < w.ioc.countP IocTask.isTrailersOnly :=
      List.countP_pos_iff.2 ⟨_, List.mem_of_getElem? hi, rfl⟩
    unfold trailerBudget at hb
    cases ht : w.call.trailersDone with
    | false => rfl
    | true =>
        rw [ht, Bool.toNat_true] at hb
        omega

theorem statusInvariant_step {w w' : StreamingCall} {e : CallEvent} (hw : StatusInvariant w)
    (hgood : w.AfterTrailers e) (h : w.step e = some w') : StatusInvariant w' := by
  obtain ⟨hreg, hbudget⟩ := step_trailerBudget hw.registered h
  obtain ⟨m, hm, hoff, hpost⟩ := step_gate h
  have hfirst := deliversTrailers_first (e := e) hw.budget
  -- an open gate has published nothing before the trailers, and `hgood` rules the later ones
  have hcompat : w.gate.Compatible m := by
    intro hopen a ha b hb
    have hdone : w.call.trailersDone = true := by
      cases ht : w.call.trailersDone with
      | true => rfl
      | false =>
          rw [hw.silent hopen ht] at hb
          cases hb
    rcases hoff a ha with hf | hf | hf
    · exact hgood hdone hopen a hf b hb
    · rw [hdone] at hf
      cases hf
    · rw [hfirst hf] at hdone
      cases hdone
  have hagreed' := hw.agreed.move hcompat hm
  have hopen : w'.call.closed = false → w.call.closed = false := Gate.move_open hm
  have hclosed : ∀ s ∈ w.gate.posted, w.call.closed = true := by
    intro s hs
    cases hc : w.call.closed with
    | true => rfl
    | false =>
        rw [hw.agreed.open_posted hc] at hs
        cases hs
  refine ⟨hreg, Nat.le_trans hbudget hw.budget, hagreed', ?_, ?_, ?_⟩
  · intro s hs
    rcases Gate.mem_posted_move hm hs with hs | hs
    · exact hw.errors s hs
    · exact hpost s hs
  · intro ho hd
    cases step_status h with
    | quiet _ hpub hdone =>
        rw [hpub]
        exact hw.silent (hopen ho) (hdone ▸ hd)
    | posted s hmem _ _ =>
        rw [hclosed s hmem] at hopen
        cases hopen ho
    | trailers s _ _ _ _ hdone =>
        rw [hdone] at hd
        cases hd
  -- the reader shows the status published last
  · cases step_status h with
    | quiet hview hpub _ =>
        rw [hpub]
        exact hw.shows.congr hview
    | posted s hmem hview hpub =>
        rw [hpub, List.getLast?_concat]
        refine (StreamingCallState.shows_publishError (hw.errors s hmem) ?_).congr hview
        have hshows := hw.shows
        cases hl : w.gate.published.getLast? with
        | none =>
            rw [hl] at hshows
            exact Or.inl hshows
        | some p =>
            rw [hl] at hshows
            have hp : p = s := hw.agreed.agree p
              (List.mem_append_left _ (List.mem_of_getLast? hl)) s (List.mem_append_right _ hmem)
            exact Or.inr (hp ▸ hshows)
    | trailers s hdel ho hview hpub _ =>
        rw [hpub, List.getLast?_concat]
        have hnil := hw.silent ho (hfirst hdel)
        have hshows := hw.shows
        rw [hnil] at hshows
        exact (StreamingCallState.shows_maybeDeliverStatus hshows).congr hview

/-- A new call of any kind. -/
theorem statusInvariant_new (kind : CallKind) (ctx : Option ClientContext) :
    StatusInvariant (new (kind.callState ctx)) := by
  have hopen : (kind.callState ctx).closed = false := by cases kind <;> rfl
  have hshows : (kind.callState ctx).Shows none := by
    cases kind <;> exact ⟨fun v hv => by cases hv <;> rfl, fun v hv => by cases hv <;> rfl⟩
  refine StatusInvariant.mk (fun h => by cases h) ?_ ?_ (by simp [gate, new]) (fun _ _ => rfl)
    hshows
  · cases kind <;> exact Nat.le_refl 1
  · exact ⟨by simp [gate, new], fun _ => rfl⟩

/-- A handle of the call reports the final status `s`. -/
def Finishes (w : StreamingCall) (s : Status) : Prop :=
  (∃ r, w.call.reader = some r ∧ r.finish = some s) ∨
    ∃ x, w.call.writer = some x ∧ x.finish = some s

/-- Every handle reports the final status `s`, the queue holds no other error, and every error that
a `Read` returns is `s`. -/
def Reports (w : StreamingCall) (s : Status) : Prop :=
  (∀ r, w.call.reader = some r →
    r.finish = some s ∧ r.msgQueue.error = (if s.isOk then none else some s) ∧
      ∀ res, r.read.2 = some res → res.status.isOk = false → res.status = s) ∧
    ∀ x, w.call.writer = some x → x.finish = some s

theorem reports_of_shows {w : StreamingCall} {s : Status} (h : w.call.Shows (some s)) :
    w.Reports s := by
  constructor
  · intro r hr
    have hv := h.1 (r.finish, r.msgQueue.error, r.msgQueue.eos)
      (by simp [StreamingCallState.statusView, hr])
    simp only [Prod.mk.injEq] at hv
    have herr : r.msgQueue.error = if s.isOk then none else some s := by
      rw [hv.2.1]
      by_cases hs : s.isOk = true <;> simp [Option.filter, hs]
    refine ⟨hv.1, herr, fun res hres hno => ?_⟩
    have he := StreamMessageQueue.pop_error_status hres hno
    rw [herr] at he
    split at he
    · cases he
    · exact (Option.some.inj he).symm
  · intro x hx
    exact h.2 x.finish (by simp [StreamingCallState.statusView, hx])

/-- A final status that a handle reports is the one the handles show. -/
theorem finishes_of_shows {w : StreamingCall} {o : Option Status} {s : Status}
    (hshows : w.call.Shows o) (h : w.Finishes s) : o = some s := by
  rcases h with ⟨r, hr, hs⟩ | ⟨x, hx, hs⟩
  · have hv := hshows.1 (r.finish, r.msgQueue.error, r.msgQueue.eos)
      (by simp [StreamingCallState.statusView, hr])
    simp only [Prod.mk.injEq] at hv
    exact hv.1.symm.trans hs
  · have hv := hshows.2 x.finish (by simp [StreamingCallState.statusView, hx])
    exact hv.symm.trans hs

theorem finishes_getLast? {w : StreamingCall} {s : Status} (hw : StatusInvariant w)
    (h : w.Finishes s) : w.gate.published.getLast? = some s :=
  finishes_of_shows hw.shows h

/-- A call with a handle on which every handle reports `s` has the final status `s`. -/
theorem Reports.finishes {w : StreamingCall} {s : Status} (h : w.Reports s)
    (hhandle : w.call.statusView ≠ (none, none)) : w.Finishes s := by
  cases hr : w.call.reader with
  | some r => exact Or.inl ⟨r, hr, (h.1 r hr).1⟩
  | none =>
      cases hx : w.call.writer with
      | some x => exact Or.inr ⟨x, hx, h.2 x hx⟩
      | none => exact absurd (by simp [StreamingCallState.statusView, hr, hx]) hhandle

/-- Publications are only added. -/
theorem run_published {w w' : StreamingCall} {es : List CallEvent}
    (h : machine.run w es = some w') : w.gate.published <+: w'.gate.published := by
  refine Machine.run_preorder (M := machine)
    (R := fun w w' : StreamingCall => w.gate.published <+: w'.gate.published)
    (fun _ => List.prefix_rfl) (fun _ _ _ => List.IsPrefix.trans) ?_ es w w' h
  intro s e t hst
  obtain ⟨m, hm, _⟩ := step_gate hst
  exact Gate.move_published hm

/-- **A published final status stands** in every run in which nothing calls `Fail` with another
status between the trailers and the close of the stream. -/
theorem final_status_stands {kind : CallKind} {ctx : Option ClientContext}
    {es fs : List CallEvent} {w w' : StreamingCall} {s : Status}
    (hgood : machine.Along AfterTrailers (new (kind.callState ctx)) (es ++ fs))
    (hrun : machine.run (new (kind.callState ctx)) es = some w)
    (hrun' : machine.run w fs = some w') (hs : w.Finishes s) : w'.Reports s := by
  obtain ⟨hgood1, hgood2⟩ := Machine.along_append hgood hrun
  have hinv : ∀ (v : StreamingCall) (e : CallEvent) (u : StreamingCall), StatusInvariant v →
      v.AfterTrailers e → machine.step v e = some u → StatusInvariant u :=
    fun v e u hv hg hst => statusInvariant_step hv hg hst
  have hw : StatusInvariant w :=
    Machine.run_invariant_along hinv es _ w (statusInvariant_new kind ctx) hgood1 hrun
  have hw' : StatusInvariant w' := Machine.run_invariant_along hinv fs w w' hw hgood2 hrun'
  have hlast := finishes_getLast? hw hs
  have hmem : s ∈ w'.gate.published := (run_published hrun').subset (List.mem_of_getLast? hlast)
  have hlast' : w'.gate.published.getLast? = some s := by
    have hne : w'.gate.published ≠ [] := List.ne_nil_of_mem hmem
    rw [List.getLast?_eq_some_getLast hne, Option.some.injEq]
    exact hw'.agreed.agree _ (List.mem_append_left _ (List.getLast_mem hne)) s
      (List.mem_append_left _ hmem)
  have hshows := hw'.shows
  rw [hlast'] at hshows
  exact reports_of_shows hshows

/-- A bidirectional call with a deadline. -/
def bidiCall : StreamingCall := new (CallKind.bidi.callState (some deadlineContext))

/-- The trailers of the call are delivered; the session has not closed the stream. -/
def untilTrailers : List CallEvent :=
  [.submit (.accepted 1), .response grpcHead, .trailers okTrailers, .runStrand]

/-- The session closes the stream, then the channel is shut down. -/
def closeThenShutdown : List CallEvent :=
  [.close 0, .runStrand, .shutdown, .runIoc 0]

/-- The deadline expires before the session closes the stream. -/
def deadlineBeforeClose : List CallEvent := [.expire, .timerHandler, .runStrand, .runIoc 0]

/-- Closing the stream and shutting the channel down does not change a status from trailers. -/
theorem final_status_stands_after_close :
    ∃ w, machine.run bidiCall (untilTrailers ++ closeThenShutdown) = some w ∧
      w.Reports Status.okStatus := by
  have hgood : machine.Along AfterTrailers bidiCall (untilTrailers ++ closeThenShutdown) := by
    decide
  have hends : ((machine.run bidiCall untilTrailers).bind fun w =>
      (machine.run w closeThenShutdown).map fun _ => w.call.writer.map (·.finish)) =
        some (some (some Status.okStatus)) := by
    decide
  obtain ⟨w, hw, hrest⟩ := Option.bind_eq_some_iff.1 hends
  obtain ⟨w', hw', hfin⟩ := Option.map_eq_some_iff.1 hrest
  obtain ⟨x, hx, hs⟩ := Option.map_eq_some_iff.1 hfin
  exact ⟨w', Machine.run_append.2 ⟨w, hw, hw'⟩,
    final_status_stands hgood hw hw' (Or.inr ⟨x, hx, hs⟩)⟩

/-- **A status delivered by trailers is replaced** when the deadline expires before `on_close`. -/
theorem not_final_status_stands :
    ¬ ∀ (kind : CallKind) (ctx : Option ClientContext) (es fs : List CallEvent)
        (w w' : StreamingCall) (s : Status),
        machine.run (new (kind.callState ctx)) es = some w → machine.run w fs = some w' →
          w.Finishes s → w'.Reports s := by
  intro h
  have hends : ((machine.run bidiCall untilTrailers).bind fun w =>
      (machine.run w deadlineBeforeClose).map fun w' =>
        (w.call.writer.map (·.finish), w'.call.writer.map (·.finish))) =
        some (some (some Status.okStatus), some (some deadlineExceeded)) := by
    decide
  obtain ⟨w, hw, hrest⟩ := Option.bind_eq_some_iff.1 hends
  obtain ⟨w', hw', hfin⟩ := Option.map_eq_some_iff.1 hrest
  obtain ⟨hfin1, hfin2⟩ := Prod.mk.inj hfin
  obtain ⟨x, hx, hs⟩ := Option.map_eq_some_iff.1 hfin1
  obtain ⟨x', hx', hs'⟩ := Option.map_eq_some_iff.1 hfin2
  have hreports := h .bidi _ _ _ w w' _ hw hw' (Or.inr ⟨x, hx, hs⟩)
  have hok := (hreports.2 x' hx').symm.trans hs'
  exact absurd hok (by decide)

end StreamingCall

end Rpcpio.Client
