import Rpcpio.Client.CallProgress
import Rpcpio.Client.UnaryCancellation

/-!
# Releasing the stream of a call that ends locally

Only the cancel closures hold the request handle, so only they reset a stream. A deadline, a framing
error, a message over the limit and a rejected response head end the call through `Fail` or
`Complete`, and its stream stays open (`stream_released_iff`). A `Cancel` from the caller's threads
completes a unary call at the outer gate; there the reset follows, unless `ClearCancelStream`
empties the slot (`CancelRun.KeepsSlot`).
-/

set_option autoImplicit false

namespace Rpcpio.Client

open Rpcpio.Library Rpcpio.Protocol

/-- What ends a call locally: its deadline, a `Cancel`, a message that cannot be parsed or is over
the limit, or a response head that `Attach` rejects. -/
inductive EndCause where
  | deadline
  | cancel
  | framing
  | badHead
  deriving DecidableEq, Repr

theorem reset_append {tr es : List Effect} (h : ResetIssued tr) : ResetIssued (tr ++ es) :=
  List.mem_append.2 (Or.inl h)

theorem reset_append_cancel (tr : List Effect) : ResetIssued (tr ++ [.request .cancel]) :=
  List.mem_append.2 (Or.inr List.mem_cons_self)

/-! ## Streaming calls -/

namespace StreamingCallState

/-- A data closure ends an open call exactly if the chunk cannot be parsed. -/
theorem onData_closed_iff {c : StreamingCallState} (hc : c.closed = false) (maxMsgSize : Nat)
    (chunk : Bytes) : (c.onData maxMsgSize chunk).1.closed = true ↔
      (c.lpm.feed maxMsgSize chunk).status.isOk = false := by
  simp only [onData, hc, Bool.false_eq_true, if_false]
  have hmessages : ∀ (ps : List Bytes) (d : StreamingCallState),
      (ps.foldl deliver d).closed = d.closed := by
    intro ps d
    exact foldl_deliver_frame closed_deliver d ps
  by_cases hok : (c.lpm.feed maxMsgSize chunk).status.isOk = true
  · simp [hok, hmessages]
  · simp [hok, fail_closed]

end StreamingCallState

namespace StreamingCall

/-- The cause for which an event ends a call locally, if it does. -/
def endCause (w : StreamingCall) : CallEvent → Option EndCause
  | .response head =>
      match headVerdict head with
      | .rejected _ => some .badHead
      | _ => none
  | .runStrand =>
      match w.strand with
      | .data maxMsgSize chunk :: _ =>
          if (w.call.lpm.feed maxMsgSize chunk).status.isOk then none else some .framing
      | .deadline :: _ => some .deadline
      | .cancel :: _ => if w.active then some .cancel else none
      | _ => none
  | .cancel onStrand => if onStrand && w.active then some .cancel else none
  | _ => none

/-- The cause for which an event ends a call locally while its stream is open. -/
def localEnd (w : StreamingCall) (e : CallEvent) : Option EndCause :=
  if w.isOpen && !w.call.closed then w.endCause e else none

/-- The events by which the peer or the channel ends a call with a stream. -/
def RemoteEnd (w : StreamingCall) : CallEvent → Prop
  | .runStrand => ∃ errorCode rest, w.strand = .close errorCode :: rest
  | .runIoc i => ∃ s, w.ioc[i]? = some (.trailersOnly s)
  | .goaway lastStreamId => w.active = true ∧ ∃ id, w.streamId = some id ∧ lastStreamId < id
  | .shutdown => w.active = true
  | _ => False

theorem cancelActive_reset {w : StreamingCall} (ha : w.active = true) :
    w.cancelActive.call.closed = true ∧ ResetIssued w.cancelActive.trace := by
  simp only [cancelActive, if_pos ha]
  exact ⟨StreamingCallState.fail_closed _ _, reset_append_cancel _⟩

theorem onWriter_closed (w : StreamingCall)
    (f : RawClientWriterImpl → RawClientWriterImpl × List RequestCall) :
    (w.onWriter f).call.closed = w.call.closed := by
  simp only [onWriter]
  split <;> rfl

theorem localEnd_eq_some {w : StreamingCall} {e : CallEvent} {c : EndCause}
    (h : w.localEnd e = some c) :
    w.isOpen = true ∧ w.call.closed = false ∧ w.endCause e = some c := by
  simp only [localEnd, Option.ite_none_right_eq_some, Bool.and_eq_true, Bool.not_eq_true'] at h
  exact ⟨h.1.1, h.1.2, h.2⟩

/-- **A step with a local cause ends the call, and resets its stream exactly for `Cancel`.** -/
theorem localEnd_step {w w' : StreamingCall} {e : CallEvent} {c : EndCause}
    (hreset : ResetIssued w.trace → w.call.closed = true) (h : w.step e = some w')
    (he : w.localEnd e = some c) :
    w'.call.closed = true ∧ (ResetIssued w'.trace ↔ c = .cancel) := by
  obtain ⟨_, hopen, hcause⟩ := localEnd_eq_some he
  -- the call is open, so that it has not been reset yet
  have hno : ¬ ResetIssued w.trace := by
    intro hr
    rw [hreset hr] at hopen
    cases hopen
  cases step_move h with
  | response head =>
      simp only [endCause] at hcause
      -- of the heads only a rejected one ends the call at once
      cases hv : headVerdict head with
      | rejected s =>
          rw [hv] at hcause
          cases hcause
          constructor
          · simp [onResponse, StreamingCallState.attach, hv, log, after,
              StreamingCallState.fail_closed]
          · simpa [onResponse, StreamingCallState.attach, hv, log, after] using hno
      | trailersOnly s => simp [hv] at hcause
      | accepted => simp [hv] at hcause
  | task t rest hs =>
      simp only [endCause, hs] at hcause
      cases t with
      | data maxMsgSize chunk =>
          simp only [Option.ite_none_left_eq_some, Option.some.injEq] at hcause
          obtain ⟨hbad, rfl⟩ := hcause
          constructor
          · exact (StreamingCallState.onData_closed_iff hopen maxMsgSize chunk).2
              (by simpa using hbad)
          · simpa [runTask, after] using hno
      | deadline =>
          cases hcause
          exact ⟨StreamingCallState.fail_closed _ _, by simpa [runTask, after] using hno⟩
      | cancel =>
          simp only [Option.ite_none_right_eq_some, Option.some.injEq] at hcause
          obtain ⟨ha, rfl⟩ := hcause
          -- the only cause that resets the stream
          obtain ⟨hclosed, hr⟩ := cancelActive_reset (w := { w with strand := rest }) ha
          exact ⟨hclosed, fun _ => rfl, fun _ => hr⟩
      | trailers hd => cases hcause
      | close errorCode => cases hcause
      | enqueue frame => cases hcause
      | writesDone => cases hcause
  | cancel =>
      simp only [endCause, Bool.true_and, Option.ite_none_right_eq_some, Option.some.injEq]
        at hcause
      obtain ⟨ha, rfl⟩ := hcause
      obtain ⟨hclosed, hr⟩ := cancelActive_reset ha
      exact ⟨hclosed, fun _ => rfl, fun _ => hr⟩
  | postCancel => simp [endCause] at hcause
  | _ => cases hcause

/-- **The causes are all there are:** a step that ends a submitted call has a local cause, or the
peer or the channel ends the call. -/
theorem endCause_complete {w w' : StreamingCall} {e : CallEvent} (hsub : w.submitted = true)
    (hc : w.call.closed = false) (h : w.step e = some w') (hc' : w'.call.closed = true) :
    (w.endCause e).isSome = true ∨ w.RemoteEnd e := by
  have hsame : ∀ {P : Prop}, w'.call.closed = w.call.closed → P := by
    intro P heq
    rw [hc, hc'] at heq
    cases heq
  cases step_move h with
  | submit o hnew =>
      rw [hsub] at hnew
      cases hnew
  | response head =>
      left
      simp only [endCause]
      cases hv : headVerdict head with
      | rejected s => rfl
      | trailersOnly s =>
          exact hsame (by simp [onResponse, StreamingCallState.attach, hv, log, after])
      | accepted => exact hsame (by simp [onResponse, StreamingCallState.attach, hv, log, after])
  | task t rest hs =>
      simp only [endCause, hs]
      cases t with
      | data maxMsgSize chunk =>
          left
          have hbad := (StreamingCallState.onData_closed_iff hc maxMsgSize chunk).1 hc'
          simp [hbad]
      | deadline => exact Or.inl rfl
      | cancel =>
          left
          by_cases ha : w.active = true
          · rw [if_pos ha]
            rfl
          · exact hsame (by simp [runTask, cancelActive, ha])
      -- trailers alone do not close the call
      | trailers hd =>
          apply hsame
          simp only [runTask, log, StreamingCallState.onTrailers, hc, Bool.false_eq_true, if_false]
          exact hc ▸ rfl
      | close errorCode => exact Or.inr ⟨errorCode, rest, hs⟩
      | enqueue frame => exact hsame (onWriter_closed _ _)
      | writesDone => exact hsame (onWriter_closed _ _)
  | ioc i t hi =>
      right
      cases t with
      | failed s => exact hsame rfl
      | streamClosed errorCode trailersDone => cases trailersDone <;> exact hsame rfl
      | trailersOnly s => exact ⟨s, hi⟩
  | cancel =>
      left
      by_cases ha : w.active = true
      · simp [endCause, ha]
      · exact hsame (by simp [cancelActive, ha])
  | goaway lastStreamId id hid hlt =>
      right
      by_cases ha : w.active = true
      · exact ⟨ha, id, hid, hlt⟩
      · exact hsame (by simp [failActive, ha])
  | shutdown =>
      right
      by_cases ha : w.active = true
      · exact ha
      · exact hsame (by simp [failActive, ha])
  | _ => exact hsame rfl

/-- In every reachable state a reset stream belongs to an ended call. -/
def ResetEnded (w : StreamingCall) : Prop := ResetIssued w.trace → w.call.closed = true

theorem resetEnded_step {w w' : StreamingCall} {e : CallEvent} (hw : w.ResetEnded)
    (h : w.step e = some w') : w'.ResetEnded := by
  intro hr
  by_cases he : ∃ id, e = .submit (.accepted id)
  · obtain ⟨id, rfl⟩ := he
    simp only [step, Option.ite_none_right_eq_some, Option.some.injEq] at h
    obtain ⟨_, rfl⟩ := h
    exact hw (resetIssued_append hr (reset_not_mem_contextReads _))
  · have hp := progress_step h fun id hid => he ⟨id, hid⟩
    rcases hp.reset hr with hr | hc
    · exact hp.closed (hw hr)
    · exact hc

theorem reset_step {w w' : StreamingCall} {e : CallEvent} (hr : ResetIssued w.trace)
    (h : w.step e = some w') : ResetIssued w'.trace := by
  obtain ⟨es, ht, _⟩ := (step_context h).effects
  rw [ht]
  exact reset_append hr

/-- **The stream of a locally ended call is reset**, in every state of the run from that end on. -/
def Releases (s : StreamingCall) (es : List CallEvent) : Prop :=
  machine.HoldsAfter (fun w e => (w.localEnd e).isSome = true) (fun w => ResetIssued w.trace) s es

/-- The condition on a step: if it ends a call locally while the stream is open, it is a
`Cancel`. -/
def EndsByCancel (w : StreamingCall) (e : CallEvent) : Prop :=
  (w.localEnd e).isSome = true → w.localEnd e = some .cancel

instance (w : StreamingCall) (e : CallEvent) : Decidable (w.EndsByCancel e) :=
  inferInstanceAs (Decidable (_ → _))

theorem releases_iff {s w : StreamingCall} {es : List CallEvent} (hs : s.ResetEnded)
    (hrun : machine.run s es = some w) : s.Releases es ↔ machine.Along EndsByCancel s es := by
  have hmark : ∀ (v : StreamingCall) (e : CallEvent) (v' : StreamingCall), v.ResetEnded →
      v.step e = some v' → (v.localEnd e).isSome = true →
        (ResetIssued v'.trace ↔ v.localEnd e = some .cancel) := by
    intro v e v' hv h hm
    obtain ⟨c, hc⟩ := Option.isSome_iff_exists.1 hm
    rw [hc, Option.some.injEq]
    exact (localEnd_step hv h hc).2
  exact Machine.holdsAfter_iff_along (I := ResetEnded) (fun _ _ _ hw h => resetEnded_step hw h)
    (fun _ _ _ hr h => reset_step hr h) hmark hs hrun

end StreamingCall

/-! ## Unary calls -/

namespace ClientCallState

/-- The checks of `Attach` that the response head of a unary call fails: content type, status code,
and encoding. -/
def rejectsHead (z : Zlib) (head : ResponseHead) : Bool :=
  !isGrpc head.header || head.statusCode ≠ 200 ||
    ((Multimap.find (text "grpc-encoding") head.header).any fun v =>
      v.value ≠ text "identity" && (parseEncoding z v.value).isNone)

theorem completed_completeWith (c : ClientCallState) (r : Option UnaryResultRaw)
    (hc : c.completed = false) : (c.completeWith r).1.completed = r.isSome := by
  cases r with
  | none => exact hc
  | some r => exact complete_completed c r

/-- `Attach` completes the call for a head that it rejects, and for a trailers-only one. -/
theorem attach_completed_iff {z : Zlib} {c : ClientCallState} (hc : c.completed = false)
    (head : ResponseHead) : (c.attach z head).1.completed = true ↔
      rejectsHead z head = true ∨ Multimap.contains (text "grpc-status") head.header = true := by
  have hsplit : ((c.attach z head).1.completed = true) ↔ ∃ r, c.headResult z head = .error r := by
    simp only [attach]
    cases c.headResult z head with
    | error r => simp [complete_completed]
    | ok enc => simp [hc]
  rw [hsplit]
  simp only [headResult, rejectsHead]
  by_cases hg : isGrpc head.header = true
  · by_cases hs : head.statusCode = 200
    · cases Multimap.find (text "grpc-encoding") head.header with
      | none =>
          by_cases ht : Multimap.contains (text "grpc-status") head.header = true <;>
            simp [hg, hs, ht]
      | some v =>
          by_cases hv : v.value = text "identity"
          · by_cases ht : Multimap.contains (text "grpc-status") head.header = true <;>
              simp [hg, hs, ht, hv]
          · cases hp : parseEncoding z v.value with
            | none => simp [hg, hs, hv, hp]
            | some enc =>
                by_cases ht : Multimap.contains (text "grpc-status") head.header = true <;>
                  simp [hg, hs, ht, hv, hp]
    · simp [hg, hs]
  · simp [hg]

/-- A data closure completes an open call exactly if the frame is bad. -/
theorem onData_completed_iff {c : ClientCallState} (hc : c.completed = false) (chunk : Bytes) :
    (c.onData chunk).1.completed = true ↔ (c.feedChunk chunk).isError = true := by
  have hne : ¬ c.completed = true := by simp [hc]
  rw [onData, if_neg hne, completed_completeWith { c with decoder := c.feedChunk chunk } _ hc]
  by_cases he : (c.feedChunk chunk).isError = true <;> simp [dataResult, hc, he]

end ClientCallState

namespace UnaryCall

/-- The cause for which an event ends a call locally, if it does. -/
def endCause (z : Zlib) (u : UnaryCall) : UnaryCallEvent → Option EndCause
  | .response head => if ClientCallState.rejectsHead z head then some .badHead else none
  | .runStrand =>
      match u.strand with
      | .data chunk :: _ => if (u.call.feedChunk chunk).isError then some .framing else none
      | .deadline :: _ => some .deadline
      | .cancel :: _ => some .cancel
      | _ => none
  | .cancelOnStrand => if u.cancelStream then some .cancel else none
  | .cancelSubmitted => if u.cancelStream then some .cancel else none
  | _ => none

/-- The cause for which an event ends a call locally while its stream is open. -/
def localEnd (z : Zlib) (u : UnaryCall) (e : UnaryCallEvent) : Option EndCause :=
  if u.streamId.isSome && !u.sessionClosed && !u.call.completed then u.endCause z e else none

/-- The events by which the peer or the channel ends a call with a stream. -/
def RemoteEnd (u : UnaryCall) : UnaryCallEvent → Prop
  | .response head => Multimap.contains (text "grpc-status") head.header = true
  | .runStrand =>
      (∃ h rest, u.strand = .trailers h :: rest) ∨
        ∃ errorCode rest, u.strand = .close errorCode :: rest
  | .goaway _ => True
  | .shutdown => True
  | _ => False

theorem localEnd_eq_some {z : Zlib} {u : UnaryCall} {e : UnaryCallEvent} {c : EndCause}
    (h : u.localEnd z e = some c) : u.call.completed = false ∧ u.endCause z e = some c := by
  simp only [localEnd, Option.ite_none_right_eq_some, Bool.and_eq_true, Bool.not_eq_true'] at h
  exact ⟨h.1.2, h.2⟩

theorem cancelOnStream_reset (u : UnaryCall) :
    u.cancelOnStream.call.completed = true ∧ ResetIssued u.cancelOnStream.trace :=
  ⟨cancelOnStream_completed u, reset_append_cancel _⟩

/-- **A step with a local cause ends the call, and resets its stream exactly for `Cancel`.** -/
theorem localEnd_step {z : Zlib} {u u' : UnaryCall} {e : UnaryCallEvent} {c : EndCause}
    (hreset : ResetIssued u.trace → u.call.completed = true) (h : step z u e = some u')
    (he : u.localEnd z e = some c) :
    u'.call.completed = true ∧ (ResetIssued u'.trace ↔ c = .cancel) := by
  obtain ⟨hopen, hcause⟩ := localEnd_eq_some he
  have hno : ¬ ResetIssued u.trace := by
    intro hr
    rw [hreset hr] at hopen
    cases hopen
  cases step_move h with
  | response head =>
      simp only [endCause, Option.ite_none_right_eq_some, Option.some.injEq] at hcause
      obtain ⟨hbad, rfl⟩ := hcause
      exact ⟨(ClientCallState.attach_completed_iff hopen head).2 (Or.inl hbad), by
        simpa [after] using hno⟩
  | task t rest hs =>
      simp only [endCause, hs] at hcause
      cases t with
      | data chunk =>
          simp only [Option.ite_none_right_eq_some, Option.some.injEq] at hcause
          obtain ⟨hbad, rfl⟩ := hcause
          exact ⟨(ClientCallState.onData_completed_iff hopen chunk).2 hbad, by
            simpa [runTask, after] using hno⟩
      | deadline =>
          cases hcause
          exact ⟨ClientCallState.complete_completed _ _, by simpa [runTask, after] using hno⟩
      | cancel =>
          cases hcause
          obtain ⟨hcompleted, hr⟩ := cancelOnStream_reset { u with strand := rest }
          exact ⟨hcompleted, fun _ => rfl, fun _ => hr⟩
      | trailers hd => cases hcause
      | close errorCode => cases hcause
  | cancelOnStrand =>
      simp only [endCause, Option.ite_none_right_eq_some, Option.some.injEq] at hcause
      obtain ⟨_, rfl⟩ := hcause
      obtain ⟨hcompleted, hr⟩ := cancelOnStream_reset { u with cancelled := true }
      exact ⟨hcompleted, fun _ => rfl, fun _ => hr⟩
  | cancelOnStrandUnset _ hunset => simp [endCause, hunset] at hcause
  | cancelSubmitted =>
      simp only [endCause, Option.ite_none_right_eq_some, Option.some.injEq] at hcause
      obtain ⟨_, rfl⟩ := hcause
      obtain ⟨hcompleted, hr⟩ :=
        cancelOnStream_reset { u with cancelled := true, phase := .arming }
      exact ⟨hcompleted, fun _ => rfl, fun _ => hr⟩
  | cancelUnset _ hunset => simp [endCause, hunset] at hcause
  | _ => cases hcause

/-- In every reachable state a reset stream belongs to an ended call. -/
def ResetEnded (u : UnaryCall) : Prop := ResetIssued u.trace → u.call.completed = true

/-- **The causes are all there are:** a step that completes a call whose request has been built has
a local cause, or the peer or the channel ends the call. -/
theorem endCause_complete {z : Zlib} {u u' : UnaryCall} {e : UnaryCallEvent}
    (hbuilt : u.phase ≠ .building) (hc : u.call.completed = false) (h : step z u e = some u')
    (hc' : u'.call.completed = true) : (u.endCause z e).isSome = true ∨ u.RemoteEnd e := by
  have hsame : ∀ {P : Prop}, u'.call.completed = u.call.completed → P := by
    intro P heq
    rw [hc, hc'] at heq
    cases heq
  cases step_move h with
  | submitCheck o =>
      apply hsame
      simp only [submitCheck]
      split
      · rfl
      · cases o <;> rfl
  | submitBuild o hphase => exact absurd hphase hbuilt
  | cancelSubmitted _ hslot => exact Or.inl (by simp [endCause, hslot])
  | response head =>
      exact ((ClientCallState.attach_completed_iff hc head).1 hc').imp_left fun hbad => by
        simp [endCause, hbad]
  | task t rest hs =>
      simp only [endCause, hs]
      cases t with
      | data chunk =>
          left
          have hbad := (ClientCallState.onData_completed_iff hc chunk).1 hc'
          simp [hbad]
      | deadline => exact Or.inl rfl
      | cancel => exact Or.inl rfl
      | trailers hd => exact Or.inr (Or.inl ⟨hd, rest, hs⟩)
      | close errorCode => exact Or.inr (Or.inr ⟨errorCode, rest, hs⟩)
  | cancelOnStrand _ hslot => exact Or.inl (by simp [endCause, hslot])
  | thread i pc => exact hsame (by rw [(stepThread_frame u i pc).2])
  | goaway lastStreamId => exact Or.inr trivial
  | shutdown => exact Or.inr trivial
  -- the other steps leave the call state as it is
  | _ => exact hsame rfl

theorem resetEnded_step {z : Zlib} {u u' : UnaryCall} {e : UnaryCallEvent} (hu : u.ResetEnded)
    (h : step z u e = some u') : u'.ResetEnded := by
  intro hr
  by_cases he : e = .armTimer
  · subst he
    simp only [step, Option.ite_none_right_eq_some, Option.some.injEq] at h
    obtain ⟨_, rfl⟩ := h
    exact hu (resetIssued_append hr (reset_not_mem_contextReads _))
  · have hp := progress_step h he
    rcases hp.reset hr with hr | hc
    · exact hp.completed (hu hr)
    · exact hc

theorem reset_step {z : Zlib} {u u' : UnaryCall} {e : UnaryCallEvent} (hr : ResetIssued u.trace)
    (h : step z u e = some u') : ResetIssued u'.trace := by
  obtain ⟨es, ht, _⟩ := step_context h
  rw [ht]
  exact reset_append hr

/-- **The stream of a locally ended call is reset**, in every state of the run from that end on. -/
def Releases (z : Zlib) (s : UnaryCall) (es : List UnaryCallEvent) : Prop :=
  (machine z).HoldsAfter (fun u e => (u.localEnd z e).isSome = true)
    (fun u => ResetIssued u.trace) s es

/-- The condition on a step: if it ends a call locally while the stream is open, it is a
`Cancel`. -/
def EndsByCancel (z : Zlib) (u : UnaryCall) (e : UnaryCallEvent) : Prop :=
  (u.localEnd z e).isSome = true → u.localEnd z e = some .cancel

instance (z : Zlib) (u : UnaryCall) (e : UnaryCallEvent) : Decidable (u.EndsByCancel z e) :=
  inferInstanceAs (Decidable (_ → _))

theorem releases_iff {z : Zlib} {s u : UnaryCall} {es : List UnaryCallEvent} (hs : s.ResetEnded)
    (hrun : (machine z).run s es = some u) :
    s.Releases z es ↔ (machine z).Along (EndsByCancel z) s es := by
  have hmark : ∀ (v : UnaryCall) (e : UnaryCallEvent) (v' : UnaryCall), v.ResetEnded →
      step z v e = some v' → (v.localEnd z e).isSome = true →
        (ResetIssued v'.trace ↔ v.localEnd z e = some .cancel) := by
    intro v e v' hv h hm
    obtain ⟨c, hc⟩ := Option.isSome_iff_exists.1 hm
    rw [hc, Option.some.injEq]
    exact (localEnd_step hv h hc).2
  exact Machine.holdsAfter_iff_along (M := machine z) (I := ResetEnded)
    (fun _ _ _ hu h => resetEnded_step hu h) (fun _ _ _ hr h => reset_step hr h) hmark hs hrun

end UnaryCall

/-! ## Runs -/

/-- A call that `Cancel` completed from the caller's threads is reset once nothing is left to
run. -/
theorem CancelRun.reset_of_drained {z : Zlib} {ctx : Option ClientContext}
    {es : List UnaryCallEvent} {x : CancelRun}
    (hrun : (CancelRun.machine z).run (CancelRun.new ctx) es = some x)
    (hkeep : (CancelRun.machine z).Along CancelRun.KeepsSlot (CancelRun.new ctx) es)
    (hwin : x.winner = some true) (hid : x.call.streamId.isSome = true)
    (hdone : x.call.phase = .done) (hstrand : x.call.strand = []) (hthreads : x.call.threads = []) :
    ResetIssued x.call.trace := by
  have hfree : x.call.strandFree = true := by simp [UnaryCall.strandFree, hdone]
  rcases ((CancelRun.handshake_run hrun hkeep).notLost hwin).2 hfree with hnone | htaken
  · rw [hnone] at hid
    cases hid
  · rcases htaken with (hs | hr) | ht
    · rw [hstrand] at hs
      cases hs
    · exact hr
    · rw [hthreads] at ht
      cases ht

/-- **Locally ended calls release their stream exactly if `Cancel` ends them.** In every run of a
streaming call, and of a unary call at its inner gate, the stream of a call that ended locally while
its stream was open is reset from then on if and only if every such end is a `Cancel`. A unary call
that `Cancel` completed at the outer gate is reset by the time nothing is left to run, if the slot
is kept. -/
theorem stream_released_iff (z : Zlib) (ctx : Option ClientContext) :
    (∀ (kind : CallKind) (es : List CallEvent) (w : StreamingCall),
      StreamingCall.machine.run (StreamingCall.new (kind.callState ctx)) es = some w →
        ((StreamingCall.new (kind.callState ctx)).Releases es ↔
          StreamingCall.machine.Along StreamingCall.EndsByCancel
            (StreamingCall.new (kind.callState ctx)) es)) ∧
      (∀ (es : List UnaryCallEvent) (u : UnaryCall),
        (UnaryCall.machine z).run (UnaryCall.new ctx) es = some u →
          ((UnaryCall.new ctx).Releases z es ↔
            (UnaryCall.machine z).Along (UnaryCall.EndsByCancel z) (UnaryCall.new ctx) es)) ∧
      ∀ (es : List UnaryCallEvent) (x : CancelRun),
        (CancelRun.machine z).run (CancelRun.new ctx) es = some x →
          (CancelRun.machine z).Along CancelRun.KeepsSlot (CancelRun.new ctx) es →
            x.winner = some true → x.call.streamId.isSome = true → x.call.phase = .done →
              x.call.strand = [] → x.call.threads = [] → ResetIssued x.call.trace := by
  refine ⟨fun kind es w hrun => ?_, fun es u hrun => ?_, fun es x hrun hkeep => ?_⟩
  · exact StreamingCall.releases_iff (fun hr => by cases hr) hrun
  · exact UnaryCall.releases_iff (fun hr => by cases hr) hrun
  · exact CancelRun.reset_of_drained hrun hkeep

/-- `Cancel` on the strand resets a bidirectional and a unary stream; and from another thread it
resets a unary one. -/
theorem stream_released_example :
    (StreamingCall.new (CallKind.bidi.callState (some deadlineContext))).Releases
        [.submit (.accepted 1), .cancel true] ∧
      (UnaryCall.new none).Releases Zlib.none
        [.submitCheck .proceed, .submitBuild (.accepted 1), .setCancelStream, .armTimer,
          .cancelOnStrand] ∧
      ∃ x, (CancelRun.machine Zlib.none).run (CancelRun.new none)
          [.submitCheck .proceed, .submitBuild (.accepted 1), .setCancelStream, .armTimer, .cancel,
            .thread 0, .thread 0, .thread 0, .thread 0, .thread 0, .thread 0, .runStrand] = some x ∧
        ResetIssued x.call.trace := by
  obtain ⟨hstream, _, _⟩ := stream_released_iff Zlib.none (some deadlineContext)
  obtain ⟨_, hunary, houter⟩ := stream_released_iff Zlib.none none
  refine ⟨?_, ?_, ?_⟩
  · exact (hstream .bidi [.submit (.accepted 1), .cancel true] _ rfl).2 (by decide)
  · exact (hunary [.submitCheck .proceed, .submitBuild (.accepted 1), .setCancelStream, .armTimer,
      .cancelOnStrand] _ rfl).2 (by decide)
  · refine ⟨_, rfl, ?_⟩
    exact houter [.submitCheck .proceed, .submitBuild (.accepted 1), .setCancelStream, .armTimer,
      .cancel, .thread 0, .thread 0, .thread 0, .thread 0, .thread 0, .thread 0, .runStrand] _ rfl
      (by decide) rfl rfl rfl rfl rfl

/-- **A call whose deadline expires leaves its stream open**, streaming or unary: the call is ended,
and nothing has reset the stream. -/
theorem not_stream_released :
    (¬ ∀ (kind : CallKind) (ctx : Option ClientContext) (es : List CallEvent) (w : StreamingCall),
        StreamingCall.machine.run (StreamingCall.new (kind.callState ctx)) es = some w →
          (StreamingCall.new (kind.callState ctx)).Releases es) ∧
      ¬ ∀ (z : Zlib) (ctx : Option ClientContext) (es : List UnaryCallEvent) (u : UnaryCall),
        (UnaryCall.machine z).run (UnaryCall.new ctx) es = some u →
          (UnaryCall.new ctx).Releases z es := by
  constructor
  · intro h
    have hreleases := h .serverStreaming (some deadlineContext)
      [.submit (.accepted 1), .expire, .timerHandler, .runStrand] _ rfl
    have hreset := hreleases [.submit (.accepted 1), .expire, .timerHandler] .runStrand [] [] _ _
      rfl rfl rfl rfl
    exact absurd hreset (by decide)
  · intro h
    have hreleases := h Zlib.none (some deadlineContext)
      [.submitCheck .proceed, .submitBuild (.accepted 1), .setCancelStream, .armTimer, .expire,
        .timerHandler, .runStrand] _ rfl
    have hreset := hreleases [.submitCheck .proceed, .submitBuild (.accepted 1), .setCancelStream,
      .armTimer, .expire, .timerHandler] .runStrand [] [] _ _ rfl rfl rfl rfl
    exact absurd hreset (by decide)

end Rpcpio.Client
