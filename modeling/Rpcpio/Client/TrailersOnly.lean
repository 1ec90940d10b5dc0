import Rpcpio.Client.StreamingStatus

/-!
# A trailers-only response and the close that follows it

`Attach` posts the status of a trailers-only response to the `io_context`, while the session's
`on_close` is posted to the strand; the two closures race for `closed_`. In a run of a call that
ends at its response head, every step is one of four moves of the gate (`trailersOnly_step`), the
first status offered to the open gate decides it (`Race.decided_of_offer`), and nothing else is ever
published. Hence the status of the header block is the final one exactly when neither the close nor
a call of `Fail` gets ahead of the posted closure with another status
(`trailers_only_status_wins`).
-/

set_option autoImplicit false

namespace Rpcpio.Client

open Rpcpio.Library Rpcpio.Protocol

/-- Whether the closure brings response data or trailers. -/
def StrandTask.isDelivery : StrandTask → Bool
  | .data _ _ => true
  | .trailers _ => true
  | _ => false

namespace StreamingCallState

theorem closed_runIoc_of_closed {c : StreamingCallState} (t : IocTask) (hc : c.closed = true) :
    (c.runIoc t).closed = true := by
  cases t with
  | failed s => exact hc
  | streamClosed errorCode trailersDone => cases trailersDone <;> exact hc
  | trailersOnly s =>
      simp only [runIoc, if_pos hc]
      exact hc

theorem closed_runIoc_trailersOnly (c : StreamingCallState) (s : Status) :
    (c.runIoc (.trailersOnly s)).closed = true := by
  simp only [runIoc]
  split
  · assumption
  · rfl

end StreamingCallState

namespace StreamingCall

/-- The status with which a step tries to pass `closed_`: the strand runs the closure of `on_close`,
or somebody calls `Fail`. -/
def closingStatus (w : StreamingCall) (e : CallEvent) : Option Status :=
  match e, w.strand with
  | .runStrand, .close errorCode :: _ => some (closeStatus errorCode)
  | _, _ => w.failStatus e

/-- The condition on a step under which the status `s` of a trailers-only response wins: while
`closed_` is unset, neither the close nor `Fail` passes it with another status. -/
def Undisturbed (s : Status) (w : StreamingCall) (e : CallEvent) : Prop :=
  w.call.closed = false → ∀ a ∈ w.closingStatus e, a = s

instance (s : Status) (w : StreamingCall) (e : CallEvent) : Decidable (Undisturbed s w e) :=
  inferInstanceAs (Decidable (_ → ∀ a ∈ w.closingStatus e, a = s))

/-- The response ends the call: `Attach` registers no callbacks, and the status it posts, if any, is
`s`. -/
def EndsAtHeaders (s : Status) (head : ResponseHead) : Prop :=
  headVerdict head ≠ .accepted ∧ ∀ a, headVerdict head = .trailersOnly a → a = s

/-! ## What is registered and posted -/

/-- No callback for data or trailers is registered, a posted status of a trailers-only response is
`s`, and it stays posted until the call is closed. -/
structure HeadersOnly (s : Status) (w : StreamingCall) : Prop where
  limit : w.dataLimit = none
  strand : ∀ t ∈ w.strand, t.isDelivery = false
  ioc : ∀ a, IocTask.trailersOnly a ∈ w.ioc → a = s
  pending : w.headersArrived = true → w.call.closed = true ∨ IocTask.trailersOnly s ∈ w.ioc

namespace HeadersOnly

variable {s : Status} {w : StreamingCall}

theorem post (h : HeadersOnly s w) {t : StrandTask} (ht : t.isDelivery = false) :
    HeadersOnly s (w.post t) := by
  refine ⟨h.limit, ?_, h.ioc, h.pending⟩
  intro x hx
  rcases List.mem_append.1 hx with hx | hx
  · exact h.strand x hx
  · rw [List.mem_singleton.1 hx]
    exact ht

/-- A member function that closes the call. -/
theorem after (h : HeadersOnly s w) {r : StreamingCallState × List IocTask}
    (hr : ∀ a, IocTask.trailersOnly a ∉ r.2) (hc : r.1.closed = true) :
    HeadersOnly s (w.after r) := by
  refine ⟨h.limit, h.strand, ?_, fun _ => Or.inl hc⟩
  intro a ha
  rcases List.mem_append.1 ha with ha | ha
  · exact h.ioc a ha
  · exact absurd ha (hr a)

theorem after_fail (h : HeadersOnly s w) (c : StreamingCallState) (f : Status) :
    HeadersOnly s (w.after (c.fail f)) := by
  simp only [StreamingCallState.fail]
  split
  · rename_i hc
    exact h.after (by simp) hc
  · exact h.after (by simp) rfl

theorem after_onStreamClose (h : HeadersOnly s w) (c : StreamingCallState) (errorCode : Nat) :
    HeadersOnly s (w.after (c.onStreamClose errorCode)) := by
  unfold StreamingCallState.onStreamClose
  dsimp only
  split
  · rename_i hc
    exact h.after (by simp) hc
  · exact h.after (by simp) rfl

theorem cancelActive (h : HeadersOnly s w) : HeadersOnly s w.cancelActive := by
  simp only [StreamingCall.cancelActive]
  split
  · exact HeadersOnly.after_fail (w := w.log _) ⟨h.limit, h.strand, h.ioc, h.pending⟩ _ _
  · exact h

theorem failActive (h : HeadersOnly s w) (f : Status) : HeadersOnly s (w.failActive f) := by
  simp only [StreamingCall.failActive]
  split
  · exact HeadersOnly.after_fail (w := { w with active := false })
      ⟨h.limit, h.strand, h.ioc, h.pending⟩ _ _
  · exact h

theorem onWriter (h : HeadersOnly s w)
    (f : RawClientWriterImpl → RawClientWriterImpl × List RequestCall) :
    HeadersOnly s (w.onWriter f) := by
  simp only [StreamingCall.onWriter]
  split
  · exact h
  · exact ⟨h.limit, h.strand, h.ioc, h.pending⟩

/-- The closures that can be on the strand. -/
theorem runTask (h : HeadersOnly s w) {t : StrandTask} (ht : t.isDelivery = false) :
    HeadersOnly s (w.runTask t) := by
  cases t with
  | data maxMsgSize chunk => cases ht
  | trailers trailers => cases ht
  | close errorCode =>
      exact HeadersOnly.after_onStreamClose (w := { w with active := false })
        ⟨h.limit, h.strand, h.ioc, h.pending⟩ _ _
  | enqueue frame => exact h.onWriter _
  | writesDone => exact h.onWriter _
  | cancel => exact h.cancelActive
  | deadline => exact h.after_fail _ _

theorem response (h : HeadersOnly s w) {head : ResponseHead} (hv : EndsAtHeaders s head) :
    HeadersOnly s (w.onResponse head) := by
  cases hverdict : headVerdict head with
  | rejected f =>
      have hattach : w.call.attach head = ((w.call.fail f).1, (w.call.fail f).2, none) := by
        simp only [StreamingCallState.attach, hverdict]
      simp only [StreamingCall.onResponse]
      rw [hattach]
      have hfail := h.after_fail w.call f
      exact ⟨rfl, h.strand, hfail.ioc, fun _ => Or.inl (StreamingCallState.fail_closed _ _)⟩
  | trailersOnly a =>
      have hattach : w.call.attach head = (w.call, [.trailersOnly s], none) := by
        simp only [StreamingCallState.attach, hverdict, hv.2 a hverdict]
      simp only [StreamingCall.onResponse]
      rw [hattach]
      refine ⟨rfl, h.strand, ?_, fun _ => Or.inr (by simp [StreamingCall.after, log])⟩
      intro a ha
      rcases List.mem_append.1 ha with ha | ha
      · exact h.ioc a ha
      · cases List.mem_singleton.1 ha
        rfl
  | accepted => exact absurd hverdict hv.1

/-- A closure of the `io_context` runs; if it is the posted status, the call is closed after it. -/
theorem runIoc (h : HeadersOnly s w) {i : Nat} {t : IocTask} (hi : w.ioc[i]? = some t) :
    HeadersOnly s
      ({ w with call := w.call.runIoc t, ioc := w.ioc.eraseIdx i }.log (iocEffects w.call t)) := by
  refine ⟨h.limit, h.strand, fun a ha => h.ioc a (List.mem_of_mem_eraseIdx ha), ?_⟩
  intro hhead
  rcases h.pending hhead with hc | hmem
  · exact Or.inl (StreamingCallState.closed_runIoc_of_closed t hc)
  · obtain ⟨j, hj⟩ := List.mem_iff_getElem?.1 hmem
    by_cases hij : j = i
    · subst hij
      rw [hi, Option.some.injEq] at hj
      exact Or.inl (hj ▸ StreamingCallState.closed_runIoc_trailersOnly w.call s)
    · exact Or.inr (List.mem_eraseIdx_iff_getElem?.2 ⟨j, hij, hj⟩)

/-- Every event of a call that ends at its response head keeps it so. -/
theorem step (h : HeadersOnly s w) {w' : StreamingCall} {e : CallEvent}
    (he : ∀ head, e = .response head → EndsAtHeaders s head)
    (hst : w.step e = some w') : HeadersOnly s w' := by
  cases StreamingCall.step_move hst with
  | submit o =>
      cases o with
      | refused f =>
          exact HeadersOnly.after_fail (w := { w with submitted := true })
            ⟨h.limit, h.strand, h.ioc, h.pending⟩ _ _
      | invalid f =>
          exact HeadersOnly.after_fail (w := { w with submitted := true }.log _)
            ⟨h.limit, h.strand, h.ioc, h.pending⟩ _ _
      | rejected f =>
          exact HeadersOnly.after_fail (w := { w with submitted := true }.log _)
            ⟨h.limit, h.strand, h.ioc, h.pending⟩ _ _
      | accepted id => exact ⟨h.limit, h.strand, h.ioc, h.pending⟩
  | response head => exact h.response (he head rfl)
  | data maxMsgSize chunk hlimit =>
      -- no head has been accepted, so that no callback takes data
      rw [h.limit] at hlimit
      cases hlimit
  | trailers hd hlimit =>
      rw [h.limit] at hlimit
      cases hlimit
  | close errorCode =>
      exact HeadersOnly.post (w := { w with sessionClosed := true }.log _)
        (t := .close errorCode) ⟨h.limit, h.strand, h.ioc, h.pending⟩ rfl
  | task t rest hs =>
      have hquiet := h.strand
      rw [hs] at hquiet
      exact HeadersOnly.runTask (w := { w with strand := rest })
        ⟨h.limit, fun x hx => hquiet x (List.mem_cons_of_mem _ hx), h.ioc, h.pending⟩
        (hquiet t List.mem_cons_self)
  | ioc i t hi => exact h.runIoc hi
  | timerHandler t =>
      exact HeadersOnly.post (w := { w with call := { w.call with timer := t } })
        ⟨h.limit, h.strand, h.ioc, h.pending⟩ rfl
  | write payload frame => exact h.post rfl
  | writesDone => exact h.post rfl
  | cancel => exact h.cancelActive
  | postCancel => exact h.post rfl
  | goaway lastStreamId => exact h.failActive _
  | shutdown => exact h.failActive _
  | _ => exact ⟨h.limit, h.strand, h.ioc, h.pending⟩

end HeadersOnly

/-! ## The race for `closed_` -/

/-- What a step does to the gate of a call that ends at its response head. -/
inductive TrailersOnlyStep (s : Status) (w w' : StreamingCall) (e : CallEvent) : Prop
  | quiet (hnone : w.closingStatus e = none) (hgate : w'.gate = w.gate)
      (hdone : w'.call.trailersDone = w.call.trailersDone)
  | closing (a : Status) (hsome : w.closingStatus e = some a)
      (hmove : w.gate.move (.post a) = some w'.gate)
      (hdone : w'.call.trailersDone = w.call.trailersDone)
  | delivered (i : Nat) (hnone : w.closingStatus e = none)
      (hmove : w.gate.move (.deliver i) = some w'.gate)
      (hdone : w'.call.trailersDone = w.call.trailersDone)
  | concluded (hnone : w.closingStatus e = none)
      (hmove : w.gate.move (.conclude s) = some w'.gate)

/-- `Fail` on an active stream. -/
theorem trailersOnlyStep_failActive (s : Status) {w : StreamingCall} {e : CallEvent} (a : Status)
    (he : w.closingStatus e = if w.active then some a else none) :
    TrailersOnlyStep s w (w.failActive a) e := by
  simp only [failActive]
  cases hact : w.active with
  | false =>
      rw [hact] at he
      exact .quiet he rfl rfl
  | true =>
      rw [hact] at he
      exact .closing a he (gate_fail (w := { w with active := false }) a rfl)
        (StreamingCallState.trailersDone_fail _ _)

/-- A cancellation of an active stream. -/
theorem trailersOnlyStep_cancelActive (s : Status) {w v : StreamingCall} {e : CallEvent}
    (hgate : v.gate = w.gate) (hdone : v.call.trailersDone = w.call.trailersDone)
    (he : w.closingStatus e = if v.active then some callCancelled else none) :
    TrailersOnlyStep s w v.cancelActive e := by
  simp only [cancelActive]
  cases hact : v.active with
  | false =>
      rw [hact] at he
      exact .quiet he hgate hdone
  | true =>
      rw [hact] at he
      have hmove := gate_fail (w := v.log [.request .cancel]) (c := v.call) callCancelled rfl
      rw [show (v.log [.request .cancel]).gate = v.gate from gate_log_request v [.cancel],
        hgate] at hmove
      exact .closing callCancelled he hmove ((StreamingCallState.trailersDone_fail _ _).trans hdone)

/-- The writer's closures. -/
theorem trailersOnlyStep_onWriter (s : Status) {w v : StreamingCall} {e : CallEvent}
    (hgate : v.gate = w.gate) (hdone : v.call.trailersDone = w.call.trailersDone)
    (he : w.closingStatus e = none)
    (f : RawClientWriterImpl → RawClientWriterImpl × List RequestCall) :
    TrailersOnlyStep s w (v.onWriter f) e := by
  simp only [onWriter]
  cases hw : v.call.writer with
  | none => exact .quiet he hgate hdone
  | some x =>
      refine .quiet he ?_ hdone
      simp only [gate_log_request]
      exact hgate

/-- A closure on the strand, which brings neither data nor trailers. -/
theorem trailersOnlyStep_runTask {s : Status} {w : StreamingCall} {t : StrandTask}
    {rest : List StrandTask} (hs : w.strand = t :: rest) (ht : t.isDelivery = false)
    (hopen : w.call.closed = false → w.call.trailersDone = false) :
    TrailersOnlyStep s w ({ w with strand := rest }.runTask t) .runStrand := by
  cases t with
  | data maxMsgSize chunk => cases ht
  | trailers trailers => cases ht
  | close errorCode =>
      refine .closing (closeStatus errorCode) (by simp [closingStatus, hs]) ?_ ?_
      · have hmove := gate_onStreamClose { w with strand := rest, active := false } errorCode
        cases hc : w.call.closed with
        | true =>
            -- a closed gate lets neither move pass
            rw [show w.gate.move (.post (closeStatus errorCode)) =
              w.gate.move (if w.call.trailersDone then .shut else .post (closeStatus errorCode)) by
                cases w.call.trailersDone <;> simp [Gate.move, gate, hc]]
            exact hmove
        | false =>
            simp only [hopen hc] at hmove
            exact hmove
      · simp only [runTask, after, StreamingCallState.onStreamClose]
        split <;> rfl
  | enqueue frame =>
      exact trailersOnlyStep_onWriter s (w := w) (v := { w with strand := rest }) rfl rfl
        (by simp [closingStatus, failStatus, hs, taskFailStatus]) _
  | writesDone =>
      exact trailersOnlyStep_onWriter s (w := w) (v := { w with strand := rest }) rfl rfl
        (by simp [closingStatus, failStatus, hs, taskFailStatus]) _
  | cancel =>
      exact trailersOnlyStep_cancelActive s (w := w) (v := { w with strand := rest }) rfl rfl
        (by simp [closingStatus, failStatus, hs, taskFailStatus])
  | deadline =>
      exact .closing deadlineExceeded (by simp [closingStatus, failStatus, hs, taskFailStatus])
        (gate_fail (w := { w with strand := rest }) _ rfl)
        (StreamingCallState.trailersDone_fail _ _)

/-- A closure of the `io_context`. -/
theorem trailersOnlyStep_runIoc {s : Status} {w : StreamingCall} {i : Nat} {t : IocTask}
    (hi : w.ioc[i]? = some t) (ht : ∀ a, t = .trailersOnly a → a = s) :
    TrailersOnlyStep s w
      ({ w with call := w.call.runIoc t, ioc := w.ioc.eraseIdx i }.log (iocEffects w.call t))
      (.runIoc i) := by
  have hnone : w.closingStatus (.runIoc i) = none := by simp [closingStatus, failStatus]
  cases t with
  | failed f =>
      obtain ⟨j, hj, he⟩ := filterMap_eraseIdx_some (f := pendingStatus) (a := f) hi rfl
      refine .delivered j hnone ?_ rfl
      simp [Gate.move, gate, log, hj, he, iocEffects, publishedStatus, StreamingCallState.runIoc,
        StreamingCallState.publishError, StreamingCallState.setFinalStatus]
  | streamClosed errorCode trailersDone =>
      cases trailersDone with
      | true =>
          have he := filterMap_eraseIdx_none (f := pendingStatus) hi rfl
          refine .quiet hnone ?_ rfl
          simp [gate, log, he, iocEffects, StreamingCallState.runIoc]
      | false =>
          obtain ⟨j, hj, he⟩ :=
            filterMap_eraseIdx_some (f := pendingStatus) (a := closeStatus errorCode) hi rfl
          refine .delivered j hnone ?_ rfl
          simp [Gate.move, gate, log, hj, he, iocEffects, publishedStatus,
            StreamingCallState.runIoc, StreamingCallState.publishError,
            StreamingCallState.setFinalStatus]
  | trailersOnly a =>
      rw [ht a rfl] at hi ⊢
      have he := filterMap_eraseIdx_none (f := pendingStatus) hi rfl
      refine .concluded hnone ?_
      by_cases hc : w.call.closed = true <;>
        simp [Gate.move, gate, log, he, iocEffects, hc, publishedStatus,
          StreamingCallState.runIoc, StreamingCallState.maybeDeliverStatus,
          StreamingCallState.setFinalStatus]

/-- **Every step of a call that ends at its response head** leaves the gate alone, offers a
closing status, delivers what was posted, or concludes with the status of the header block. -/
theorem trailersOnly_step {s : Status} {w w' : StreamingCall} {e : CallEvent}
    (hw : HeadersOnly s w) (hopen : w.call.closed = false → w.call.trailersDone = false)
    (he : ∀ head, e = .response head → EndsAtHeaders s head)
    (hst : w.step e = some w') : TrailersOnlyStep s w w' e := by
  cases step_move hst with
  | submit o =>
      have hreads := gate_log_contextReads { w with submitted := true } w
      cases o with
      | refused f =>
          exact .closing f rfl (gate_fail f rfl) (StreamingCallState.trailersDone_fail _ _)
      | invalid f =>
          have hmove := gate_fail (w := { w with submitted := true }.log w.contextReads)
            (c := w.call) f rfl
          rw [hreads] at hmove
          exact .closing f rfl hmove (StreamingCallState.trailersDone_fail _ _)
      | rejected f =>
          have hmove := gate_fail (w := { w with submitted := true }.log w.contextReads)
            (c := w.call) f rfl
          rw [hreads] at hmove
          exact .closing f rfl hmove (StreamingCallState.trailersDone_fail _ _)
      | accepted id =>
          refine .quiet rfl ?_ rfl
          simp only [submit, gate_log_contextReads]
          rfl
  -- a head that is accepted does not end the call at the headers
  | response head =>
      cases hv : headVerdict head with
      | rejected f =>
          refine .closing f (by simp [closingStatus, failStatus, hv]) ?_ ?_
          · rw [gate_fail (c := w.call) f rfl]
            simp [onResponse, StreamingCallState.attach, hv, gate, after, log]
          · simp [onResponse, StreamingCallState.attach, hv, after, log]
      | trailersOnly a =>
          refine .quiet (by simp [closingStatus, failStatus, hv]) ?_ ?_
          · simp [onResponse, StreamingCallState.attach, hv, gate, after, log, pendingStatus,
              List.filterMap_append]
          · simp [onResponse, StreamingCallState.attach, hv, after, log]
      | accepted => exact absurd hv (he head rfl).1
  | close errorCode =>
      refine .quiet (by simp [closingStatus, failStatus]) ?_ rfl
      simp [gate, post, log, publishedStatus]
  | task t rest hs =>
      -- the closures on the strand carry no trailers
      exact trailersOnlyStep_runTask hs (hw.strand t (by rw [hs]; exact List.mem_cons_self)) hopen
  | ioc i t hi =>
      apply trailersOnlyStep_runIoc hi
      rintro a rfl
      exact hw.ioc a (List.mem_of_getElem? hi)
  | cancel => exact trailersOnlyStep_cancelActive s rfl rfl (by simp [closingStatus, failStatus])
  | goaway lastStreamId id hid hlt =>
      exact trailersOnlyStep_failActive s _ (by simp [closingStatus, failStatus, hid, hlt])
  | spared lastStreamId hid =>
      refine .quiet ?_ rfl rfl
      cases hs : w.streamId with
      | none => simp [closingStatus, failStatus, hs]
      | some id => simp [closingStatus, failStatus, hs, hid id hs]
  | shutdown => exact trailersOnlyStep_failActive s _ (by simp [closingStatus, failStatus])
  | _ => exact .quiet (by simp [closingStatus, failStatus]) rfl rfl

/-! ## The outcome -/

/-- Publications keep the handles. -/
theorem handle_step {w w' : StreamingCall} {e : CallEvent}
    (hhandle : w.call.statusView ≠ (none, none)) (hst : w.step e = some w') :
    w'.call.statusView ≠ (none, none) := by
  cases step_status hst with
  | quiet hview _ _ => rwa [hview]
  | posted a _ hview _ =>
      rw [hview]
      simpa [StreamingCallState.statusView, StreamingCallState.publishError,
        StreamingCallState.setFinalStatus] using hhandle
  | trailers a _ _ hview _ _ =>
      rw [hview]
      simpa [StreamingCallState.statusView, StreamingCallState.maybeDeliverStatus,
        StreamingCallState.setFinalStatus] using hhandle

/-- What every step of such a call preserves: an open gate has no outcome, a closed one is decided,
and the call has a handle. -/
structure Race (s : Status) (w : StreamingCall) : Prop where
  headers : HeadersOnly s w
  undecided : w.call.closed = false →
    w.call.trailersDone = false ∧ w.gate.posted = [] ∧ w.gate.published = []
  decided : w.call.closed = true → ∃ a, w.gate.Decided a
  status : StatusInvariant w
  handle : w.call.statusView ≠ (none, none)

namespace Race

variable {s : Status} {w w' : StreamingCall} {e : CallEvent}

/-- The first status offered to the open gate decides it. -/
theorem decided_of_move (h : Race s w) (hc : w.call.closed = false) {a : Status} {g : Gate Status}
    (hmove : w.gate.move (.post a) = some g ∨ w.gate.move (.conclude a) = some g) :
    g.Decided a := by
  obtain ⟨_, hposted, hpublished⟩ := h.undecided hc
  have hgate : w.gate.closed = false := hc
  rcases hmove with hmove | hmove <;> simp only [Gate.move, hgate, Option.some.injEq] at hmove <;>
    subst hmove <;> exact ⟨rfl, by simp [hposted, hpublished]⟩

theorem decided_of_offer (h : Race s w) (he : ∀ head, e = .response head → EndsAtHeaders s head)
    (hc : w.call.closed = false) {a : Status} (ha : w.closingStatus e = some a)
    (hst : w.step e = some w') : w'.gate.Decided a := by
  cases trailersOnly_step h.headers (fun hc => (h.undecided hc).1) he hst with
  | quiet hnone _ _ => simp [hnone] at ha
  | closing b hsome hmove _ =>
      rw [hsome, Option.some.injEq] at ha
      exact ha ▸ h.decided_of_move hc (Or.inl hmove)
  | delivered i hnone _ _ => simp [hnone] at ha
  | concluded hnone _ => simp [hnone] at ha

theorem step (h : Race s w) (he : ∀ head, e = .response head → EndsAtHeaders s head)
    (hst : w.step e = some w') : Race s w' := by
  have hstatus : StatusInvariant w' := by
    apply statusInvariant_step h.status _ hst
    intro hdone hopen
    -- trailers are only delivered by the closure that closes the call
    rw [(h.undecided hopen).1] at hdone
    cases hdone
  have hsettled : ∀ a, w'.gate.Decided a →
      (w'.call.closed = false →
        w'.call.trailersDone = false ∧ w'.gate.posted = [] ∧ w'.gate.published = []) ∧
      (w'.call.closed = true → ∃ b, w'.gate.Decided b) := by
    intro a ha
    constructor
    · intro hopen
      rw [show w'.call.closed = true from ha.closed] at hopen
      cases hopen
    · intro _
      exact ⟨a, ha⟩
  have hgate : (w'.call.closed = false →
        w'.call.trailersDone = false ∧ w'.gate.posted = [] ∧ w'.gate.published = []) ∧
      (w'.call.closed = true → ∃ b, w'.gate.Decided b) := by
    have hcases := trailersOnly_step h.headers (fun hc => (h.undecided hc).1) he hst
    cases hc : w.call.closed with
    | true =>
        obtain ⟨a, ha⟩ := h.decided hc
        apply hsettled a
        cases hcases with
        | quiet _ hgate _ => exact hgate ▸ ha
        | closing b _ hmove _ => exact ha.move hmove
        | delivered i _ hmove _ => exact ha.move hmove
        | concluded _ hmove => exact ha.move hmove
    | false =>
        obtain ⟨hdone, hposted, hpublished⟩ := h.undecided hc
        cases hcases with
        | quiet _ hgate hsame =>
            have hclosed : w'.call.closed = w.call.closed := congrArg Gate.closed hgate
            refine ⟨fun _ => ⟨hsame.trans hdone, by rw [hgate, hposted], by rw [hgate, hpublished]⟩,
              fun hclosed' => ?_⟩
            rw [hclosed, hc] at hclosed'
            cases hclosed'
        | closing b _ hmove _ => exact hsettled b (h.decided_of_move hc (Or.inl hmove))
        | delivered i _ hmove _ =>
            -- nothing is posted at an open gate
            simp [Gate.move, hposted] at hmove
        | concluded _ hmove => exact hsettled s (h.decided_of_move hc (Or.inr hmove))
  exact ⟨h.headers.step he hst, hgate.1, hgate.2, hstatus, handle_step h.handle hst⟩

theorem new (s : Status) (kind : CallKind) (ctx : Option ClientContext) :
    Race s (new (kind.callState ctx)) := by
  refine ⟨⟨rfl, by simp [StreamingCall.new], by simp [StreamingCall.new], fun h => by cases h⟩,
    fun _ => ?_, fun h => ?_, statusInvariant_new kind ctx, ?_⟩
  · cases kind <;> exact ⟨rfl, rfl, rfl⟩
  · cases kind <;> cases h
  · cases kind <;> intro h <;> cases h

/-- Once nothing is posted, a decided call reports its outcome. -/
theorem reports (h : Race s w) {a : Status} (ha : w.gate.Decided a) (hioc : w.ioc = []) :
    w.Finishes a ∧ w.Reports a := by
  have hposted : w.gate.posted = [] := by simp [gate, hioc]
  have hpublished : w.gate.published = [a] := by
    have hout := ha.outcome
    rwa [hposted, List.nil_append] at hout
  have hshows := h.status.shows
  rw [hpublished] at hshows
  have hreports := reports_of_shows (s := a) hshows
  exact ⟨hreports.finishes h.handle, hreports⟩

/-- A final status shown by a handle is the outcome. -/
theorem finishes (h : Race s w) {a b : Status} (ha : w.gate.Decided a) (hb : w.Finishes b) :
    b = a := by
  have hmem : b ∈ w.gate.posted ++ w.gate.published :=
    List.mem_append_right _ (List.mem_of_getLast? (finishes_getLast? h.status hb))
  rw [ha.outcome] at hmem
  exact List.mem_singleton.1 hmem

theorem run {es : List CallEvent} (h : Race s w)
    (hes : ∀ head, CallEvent.response head ∈ es → EndsAtHeaders s head)
    (hrun : machine.run w es = some w') : Race s w' := by
  induction es generalizing w with
  | nil =>
      rw [Machine.run_nil, Option.some.injEq] at hrun
      exact hrun ▸ h
  | cons e es ih =>
      obtain ⟨v, hv, hrest⟩ := Machine.run_cons_some.1 hrun
      have he : ∀ head, e = .response head → EndsAtHeaders s head :=
        fun head hh => hes head (by rw [← hh]; exact List.mem_cons_self)
      exact ih (h.step he hv) (fun head hh => hes head (List.mem_cons_of_mem _ hh)) hrest

end Race

/-- The first offer in the run decides it, so a run that ends with `s` was undisturbed. -/
theorem undisturbed_of_decided {s : Status} {es : List CallEvent} {w w' : StreamingCall}
    (hw : Race s w) (hes : ∀ head, CallEvent.response head ∈ es → EndsAtHeaders s head)
    (hrun : machine.run w es = some w') (hend : w'.gate.Decided s) :
    machine.Along (Undisturbed s) w es := by
  induction es generalizing w with
  | nil => trivial
  | cons e es ih =>
      obtain ⟨v, hv, hrest⟩ := Machine.run_cons_some.1 hrun
      have he : ∀ head, e = .response head → EndsAtHeaders s head :=
        fun head h => hes head (by rw [← h]; exact List.mem_cons_self)
      constructor
      · intro hc a ha
        have hdecided := hw.decided_of_offer he hc ha hv
        have hkept : w'.gate.Decided a := by
          refine Machine.run_invariant (M := machine) (I := fun u => u.gate.Decided a) ?_ es v w'
            hdecided hrest
          intro u f u' hu hst
          obtain ⟨m, hm, _⟩ := step_gate hst
          exact hu.move hm
        exact Gate.Decided.unique hkept hend
      · intro v' hv'
        have hsame : v = v' := Option.some.inj (hv.symm.trans hv')
        subst hsame
        exact ih (hw.step he hv) (fun head h => hes head (List.mem_cons_of_mem _ h)) hrest

/-- In an undisturbed run nothing but `s` is ever decided. -/
theorem decided_of_undisturbed {s : Status} {es : List CallEvent} {w w' : StreamingCall}
    (hw : Race s w) (hs : w.call.closed = true → w.gate.Decided s)
    (hes : ∀ head, CallEvent.response head ∈ es → EndsAtHeaders s head)
    (hgood : machine.Along (Undisturbed s) w es) (hrun : machine.run w es = some w') :
    Race s w' ∧ (w'.call.closed = true → w'.gate.Decided s) := by
  induction es generalizing w with
  | nil =>
      rw [Machine.run_nil, Option.some.injEq] at hrun
      exact hrun ▸ ⟨hw, hs⟩
  | cons e es ih =>
      obtain ⟨v, hv, hrest⟩ := Machine.run_cons_some.1 hrun
      have he : ∀ head, e = .response head → EndsAtHeaders s head :=
        fun head h => hes head (by rw [← h]; exact List.mem_cons_self)
      have hcases := trailersOnly_step hw.headers (fun hc => (hw.undecided hc).1) he hv
      apply ih (hw.step he hv) _ (fun head h => hes head (List.mem_cons_of_mem _ h))
        (hgood.2 v hv) hrest
      intro hclosed
      cases hc : w.call.closed with
      | true =>
          obtain ⟨m, hm, _⟩ := step_gate hv
          exact (hs hc).move hm
      | false =>
          cases hcases with
          | quiet _ hgate _ =>
              rw [show v.call.closed = w.call.closed from congrArg Gate.closed hgate, hc] at hclosed
              cases hclosed
          | closing a hsome hmove _ =>
              have ha : a = s := hgood.1 hc a hsome
              exact ha ▸ hw.decided_of_move hc (Or.inl hmove)
          | delivered i _ hmove _ => simp [Gate.move, (hw.undecided hc).2.1] at hmove
          | concluded _ hmove => exact hw.decided_of_move hc (Or.inr hmove)

/-- The final status of the call is `s`: no handle shows another one, and once nothing is posted
every handle reports it. -/
def EndsWith (w : StreamingCall) (s : Status) : Prop :=
  (∀ a, w.Finishes a → a = s) ∧ (w.strand = [] → w.ioc = [] → w.Finishes s ∧ w.Reports s)

/-- **The outcome of a call that ends at its response head.** It is `s` in undisturbed runs, and
only in these once everything posted has run. -/
theorem endsWith_iff_undisturbed {kind : CallKind} {ctx : Option ClientContext}
    {es : List CallEvent} {w : StreamingCall} {head : ResponseHead} {s : Status}
    (hends : EndsAtHeaders s head) (hhead : CallEvent.response head ∈ es)
    (hrun : machine.run (new (kind.callState ctx)) es = some w) :
    (machine.Along (Undisturbed s) (new (kind.callState ctx)) es → w.EndsWith s) ∧
      (w.strand = [] → w.ioc = [] → w.EndsWith s →
        machine.Along (Undisturbed s) (new (kind.callState ctx)) es) := by
  obtain ⟨harrived, hunique⟩ := response_unique hrun hhead
  have hes : ∀ other, CallEvent.response other ∈ es → EndsAtHeaders s other :=
    fun other hother => hunique other hother ▸ hends
  have hnew := Race.new s kind ctx
  have hopen : (new (kind.callState ctx)).call.closed = false := by cases kind <;> rfl
  constructor
  · intro hgood
    -- undisturbed, whoever closes the call closes it with `s`
    obtain ⟨hrace, hdecided⟩ := decided_of_undisturbed hnew
      (fun hc => by rw [hopen] at hc; cases hc) hes hgood hrun
    constructor
    · intro a ha
      cases hc : w.call.closed with
      | true => exact hrace.finishes (hdecided hc) ha
      | false =>
          have hlast := finishes_getLast? hrace.status ha
          rw [(hrace.undecided hc).2.2] at hlast
          cases hlast
    · intro _ hioc
      rcases hrace.headers.pending harrived with hc | hmem
      · exact hrace.reports (hdecided hc) hioc
      · rw [hioc] at hmem
        cases hmem
  · intro hstrand hioc hfinal
    have hrace : Race s w := Race.run hnew hes hrun
    rcases hrace.headers.pending harrived with hc | hmem
    · -- the call was decided for some status, and that is what it ends with
      obtain ⟨a, ha⟩ := hrace.decided hc
      have hsa : s = a := hrace.finishes ha (hfinal.2 hstrand hioc).1
      exact undisturbed_of_decided hnew hes hrun (hsa ▸ ha)
    · rw [hioc] at hmem
      cases hmem

/-- **A trailers-only status wins over the close** in every run in which no other status passes
`closed_` before the posted closure does; and in no other run, once everything posted has run. -/
theorem trailers_only_status_wins {kind : CallKind} {ctx : Option ClientContext}
    {es : List CallEvent} {w : StreamingCall} {head : ResponseHead} {s : Status}
    (hv : headVerdict head = .trailersOnly s) (hhead : CallEvent.response head ∈ es)
    (hrun : machine.run (new (kind.callState ctx)) es = some w) :
    (machine.Along (Undisturbed s) (new (kind.callState ctx)) es → w.EndsWith s) ∧
      (w.strand = [] → w.ioc = [] → w.EndsWith s →
        machine.Along (Undisturbed s) (new (kind.callState ctx)) es) := by
  apply endsWith_iff_undisturbed _ hhead hrun
  constructor
  · simp [hv]
  · intro a ha
    rw [hv] at ha
    cases ha
    rfl

/-- A trailers-only response. -/
def notFoundHead : ResponseHead :=
  ⟨200, [(text "content-type", plain (text "application/grpc+proto")),
    (text "grpc-status", plain (text "5"))]⟩

/-- The status of `notFoundHead`. -/
def notFoundStatus : Status := ⟨.notFound, [], []⟩

/-- The response arrives and the session closes the stream, before any posted closure runs. -/
def headThenClose : List CallEvent := [.submit (.accepted 1), .response notFoundHead, .close 0]

/-- The `io_context` runs the closure of `Attach` before the strand runs the one of `on_close`. -/
theorem trailers_only_status_wins_in_order :
    ∃ w, machine.run (new (CallKind.bidi.callState none))
        (headThenClose ++ [.runIoc 0, .runStrand]) = some w ∧ w.EndsWith notFoundStatus := by
  have hsome : (machine.run (new (CallKind.bidi.callState none))
      (headThenClose ++ [.runIoc 0, .runStrand])).isSome = true := by decide
  obtain ⟨w, hw⟩ := Option.isSome_iff_exists.1 hsome
  exact ⟨w, hw, (@trailers_only_status_wins .bidi none _ w notFoundHead _ (by decide)
    (by decide) hw).1 (by decide)⟩

/-- **The close overtakes the status of the header block** when the strand runs first. -/
theorem not_trailers_only_status_wins :
    ¬ ∀ (kind : CallKind) (ctx : Option ClientContext) (head : ResponseHead) (s : Status)
        (id : StreamId) (fs : List CallEvent) (w : StreamingCall),
        headVerdict head = .trailersOnly s →
        (∀ e ∈ fs, e = .runStrand ∨ ∃ i, e = .runIoc i) →
        machine.run (new (kind.callState ctx))
          ([.submit (.accepted id), .response head, .close 0] ++ fs) = some w →
        w.EndsWith s := by
  intro h
  have hends : (machine.run (new (CallKind.bidi.callState none))
      (headThenClose ++ [.runStrand, .runIoc 0, .runIoc 0])).map
        (fun w => (w.call.writer.map (·.finish), w.strand, w.ioc)) =
      some (some (some (closeStatus 0)), [], []) := by
    decide
  obtain ⟨w, hw, hview⟩ := Option.map_eq_some_iff.1 hends
  obtain ⟨hfin, hrest⟩ := Prod.mk.inj hview
  obtain ⟨x, hx, hs⟩ := Option.map_eq_some_iff.1 hfin
  have hfinal := h .bidi none notFoundHead notFoundStatus 1 [.runStrand, .runIoc 0, .runIoc 0] w
    (by decide) (by simp) hw
  exact absurd (hfinal.1 _ (Or.inr ⟨x, hx, hs⟩)) (by decide)

end StreamingCall

end Rpcpio.Client
