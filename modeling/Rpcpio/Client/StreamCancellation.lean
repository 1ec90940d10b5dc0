import Rpcpio.Client.StreamRelease
import Rpcpio.Client.TrailersOnly

/-!
# Cancelling a streaming call

`ClientContext::Cancel` emits a signal, and the three streaming submit functions connect a handler
to it only once the stream is open. Before that, while the call waits for its submit closure or in
`pending_generic_calls_`, the signal has no handler, and unlike the control of a unary call nothing
remembers it. `CancelRequest` records whether `Cancel` was called before a status was published; the
call ends with CANCELLED if every such `Cancel` finds the stream open (`Heeded`).
-/

set_option autoImplicit false

namespace Rpcpio.Client

open Rpcpio.Library Rpcpio.Protocol

namespace StreamingCall

/-! ## What a step does to the strand and to the active map -/

/-- The strand gets closures at its end, or runs the one at its front; and the active map takes the
stream when it is opened and drops it when the peer or the channel ends the call. -/
structure StreamStep (w : StreamingCall) (e : CallEvent) (w' : StreamingCall) : Prop where
  strand : (∃ ts, w'.strand = w.strand ++ ts) ∨ (e = .runStrand ∧ ∃ t, w.strand = t :: w'.strand)
  active : w'.active = w.active ∨
    (w'.active = true ∧ w'.submitted = true ∧ w'.streamId.isSome = true) ∨
    (w'.active = false ∧ w.RemoteEnd e)
  stream : w.streamId.isSome = true → w'.streamId.isSome = true

theorem streamStep_quiet {w w' : StreamingCall} {e : CallEvent}
    (hs : ∃ ts, w'.strand = w.strand ++ ts) (ha : w'.active = w.active)
    (hid : w'.streamId = w.streamId) : StreamStep w e w' :=
  ⟨Or.inl hs, Or.inl ha, fun h => hid ▸ h⟩

theorem onWriter_stream (w : StreamingCall)
    (f : RawClientWriterImpl → RawClientWriterImpl × List RequestCall) :
    (w.onWriter f).strand = w.strand ∧ (w.onWriter f).active = w.active ∧
      (w.onWriter f).streamId = w.streamId := by
  simp only [onWriter]
  split <;> exact ⟨rfl, rfl, rfl⟩

theorem cancelActive_stream (w : StreamingCall) :
    w.cancelActive.strand = w.strand ∧ w.cancelActive.active = w.active ∧
      w.cancelActive.streamId = w.streamId := by
  simp only [cancelActive]
  split <;> exact ⟨rfl, rfl, rfl⟩

theorem failActive_stream {w : StreamingCall} {e : CallEvent} (s : Status)
    (he : w.active = true → w.RemoteEnd e) : StreamStep w e (w.failActive s) := by
  simp only [failActive]
  split
  · rename_i ha
    exact ⟨Or.inl ⟨[], by simp [after]⟩, Or.inr (Or.inr ⟨rfl, he ha⟩), id⟩
  · exact streamStep_quiet ⟨[], by simp⟩ rfl rfl

/-- The closure at the front of the strand runs. -/
theorem runTask_stream {w : StreamingCall} {t : StrandTask} {rest : List StrandTask}
    (hs : w.strand = t :: rest) :
    StreamStep w .runStrand ({ w with strand := rest }.runTask t) := by
  have hfront : ∀ {v : StreamingCall}, v.strand = rest →
      ((∃ ts, v.strand = w.strand ++ ts) ∨
        (CallEvent.runStrand = .runStrand ∧ ∃ t, w.strand = t :: v.strand)) := by
    intro v hv
    exact Or.inr ⟨rfl, t, by rw [hs, hv]⟩
  cases t with
  | data maxMsgSize chunk => exact ⟨hfront rfl, Or.inl rfl, id⟩
  | trailers h => exact ⟨hfront rfl, Or.inl rfl, id⟩
  | close errorCode =>
      exact ⟨hfront rfl, Or.inr (Or.inr ⟨rfl, errorCode, rest, hs⟩), id⟩
  | enqueue frame =>
      obtain ⟨h1, h2, h3⟩ := onWriter_stream { w with strand := rest } fun x =>
        x.enqueueOnStrand frame
      exact ⟨hfront h1, Or.inl h2, fun h => (congrArg Option.isSome h3).trans h⟩
  | writesDone =>
      obtain ⟨h1, h2, h3⟩ := onWriter_stream { w with strand := rest } fun x =>
        x.writesDoneOnStrand
      exact ⟨hfront h1, Or.inl h2, fun h => (congrArg Option.isSome h3).trans h⟩
  | cancel =>
      obtain ⟨h1, h2, h3⟩ := cancelActive_stream { w with strand := rest }
      exact ⟨hfront h1, Or.inl h2, fun h => (congrArg Option.isSome h3).trans h⟩
  | deadline => exact ⟨hfront rfl, Or.inl rfl, id⟩

theorem step_stream {w w' : StreamingCall} {e : CallEvent} (h : w.step e = some w') :
    StreamStep w e w' := by
  have hsame : ∀ {v : StreamingCall}, v.strand = w.strand → v.active = w.active →
      v.streamId = w.streamId → StreamStep w e v :=
    fun hs ha hid => streamStep_quiet ⟨[], by rw [hs, List.append_nil]⟩ ha hid
  have hposts : ∀ {v : StreamingCall} (t : StrandTask), v.strand = w.strand ++ [t] →
      v.active = w.active → v.streamId = w.streamId → StreamStep w e v :=
    fun t hs ha hid => streamStep_quiet ⟨[t], hs⟩ ha hid
  cases step_move h with
  | submit o =>
      cases o with
      | accepted id =>
          exact ⟨Or.inl ⟨[], by simp [submit, log]⟩, Or.inr (Or.inl ⟨rfl, rfl, rfl⟩), fun _ => rfl⟩
      | refused s => exact hsame rfl rfl rfl
      | invalid s => exact hsame rfl rfl rfl
      | rejected s => exact hsame rfl rfl rfl
  | data maxMsgSize chunk => exact hposts _ rfl rfl rfl
  | trailers hd => exact hposts _ rfl rfl rfl
  | close errorCode => exact hposts _ rfl rfl rfl
  | task t rest hs => exact runTask_stream hs
  | timerHandler t => exact hposts _ rfl rfl rfl
  | write payload frame => exact hposts _ rfl rfl rfl
  | writesDone => exact hposts _ rfl rfl rfl
  | cancel =>
      obtain ⟨h1, h2, h3⟩ := w.cancelActive_stream
      exact hsame h1 h2 h3
  | postCancel => exact hposts _ rfl rfl rfl
  | goaway lastStreamId id hid hlt => exact failActive_stream _ fun ha => ⟨ha, id, hid, hlt⟩
  | shutdown => exact failActive_stream _ fun ha => ha
  | _ => exact hsame rfl rfl rfl

/-- Only the cancel closures end a call as cancelled. -/
theorem endCause_cancel {w w' : StreamingCall} {e : CallEvent} (hc : w.endCause e = some .cancel)
    (h : w.step e = some w') : w' = w.cancelActive ∨
      ∃ rest, w.strand = .cancel :: rest ∧ w' = { w with strand := rest }.cancelActive := by
  cases e with
  | response head =>
      simp only [endCause] at hc
      split at hc <;> cases hc
  | runStrand =>
      cases hs : w.strand with
      | nil => simp [step, hs] at h
      | cons t rest =>
          simp only [step, hs, Option.some.injEq] at h
          cases t with
          | cancel => exact Or.inr ⟨rest, rfl, h.symm⟩
          | data maxMsgSize chunk =>
              simp only [endCause, hs] at hc
              split at hc <;> cases hc
          | _ => simp [endCause, hs] at hc
  | cancel onStrand =>
      simp only [endCause, Option.ite_none_right_eq_some, Bool.and_eq_true] at hc
      obtain ⟨⟨rfl, _⟩, _⟩ := hc
      simp only [step, Option.ite_none_right_eq_some, Option.some.injEq, if_true] at h
      exact Or.inl h.2.symm
  | _ => cases hc

end StreamingCall

/-! ## Requests to cancel -/

/-- A streaming call, and whether `ClientContext::Cancel` was called on its context before a status
was published. -/
structure CancelRequest where
  call : StreamingCall
  asked : Bool
  deriving DecidableEq, Repr

namespace CancelRequest

/-- A call that has just been given to the channel. -/
def new (kind : CallKind) (ctx : ClientContext) : CancelRequest :=
  ⟨StreamingCall.new (kind.callState (some ctx)), false⟩

/-- One event; a `Cancel` whose slot has no handler does nothing. -/
def step (x : CancelRequest) : CallEvent → Option CancelRequest
  | .cancel onStrand =>
      some ⟨(x.call.step (.cancel onStrand)).getD x.call, x.asked || !hasOutcome x.call.trace⟩
  | e => (x.call.step e).map fun w => ⟨w, x.asked⟩

/-- The calls with their requests as a machine. -/
def machine : Machine CancelRequest CallEvent := ⟨step⟩

/-- The event ends the call in another way, or publishes another status. -/
def Overtakes (w : StreamingCall) (e : CallEvent) : Prop :=
  (∃ c, w.endCause e = some c ∧ c ≠ .cancel) ∨ w.RemoteEnd e ∨ w.DeliversTrailers e

/-- The cancellation slot of the context has a handler. -/
def Connected (w : StreamingCall) : Prop := w.streamId.isSome = true ∧ w.call.ctx.isSome = true

/-- The condition on a step: a `Cancel` finds its handler, the stream in the active map and the call
not ended; and nothing overtakes the closure that it posts. -/
def Heeded (x : CancelRequest) : CallEvent → Prop
  | .cancel _ => x.asked = false → hasOutcome x.call.trace = false →
      Connected x.call ∧ x.call.active = true ∧ x.call.call.closed = false
  | e => x.asked = true → x.call.call.closed = false → ¬ Overtakes x.call e

/-! ## The invariant -/

/-- What holds of every call. -/
structure Tracked (w : StreamingCall) : Prop where
  active : w.active = true → w.submitted = true ∧ w.streamId.isSome = true
  posted : w.call.closed = false → w.gate.posted = []
  shows : w.gate.published = [] → w.call.Shows none
  handle : w.call.statusView ≠ (none, none)

/-- The cancel closure is on the strand, and will find the call open. -/
structure Pending (w : StreamingCall) : Prop where
  cancel : StrandTask.cancel ∈ w.strand
  active : w.active = true
  open_ : w.call.closed = false
  silent : w.gate.published = []

/-- The call ends with CANCELLED, and its stream is reset. -/
structure Cancelled (w : StreamingCall) : Prop where
  decided : w.gate.Decided callCancelled
  reset : ResetIssued w.trace
  shows : w.gate.published ≠ [] → w.call.Shows (some callCancelled)

theorem tracked_new (kind : CallKind) (ctx : Option ClientContext) :
    Tracked (StreamingCall.new (kind.callState ctx)) := by
  refine ⟨fun h => (by cases h), fun _ => rfl, fun _ => ?_, ?_⟩
  · cases kind <;> exact ⟨fun v hv => by cases hv <;> rfl, fun v hv => by cases hv <;> rfl⟩
  · cases kind <;> intro h <;> cases h

theorem tracked_step {w w' : StreamingCall} {e : CallEvent} (hw : Tracked w)
    (h : w.step e = some w') : Tracked w' := by
  obtain ⟨m, hm, _, _⟩ := StreamingCall.step_gate h
  have hopen : w'.call.closed = false → w.call.closed = false := Gate.move_open hm
  refine ⟨fun ha => ?_, fun ho => ?_, fun hnil => ?_, ?_⟩
  · have hstream := StreamingCall.step_stream h
    rcases hstream.active with hsame | ⟨_, hopened⟩ | ⟨hdropped, _⟩
    · obtain ⟨hs, hid⟩ := hw.active (hsame ▸ ha)
      exact ⟨(StreamingCall.step_context h).submitted hs, hstream.stream hid⟩
    · exact hopened
    · rw [ha] at hdropped
      cases hdropped
  · exact Gate.move_open_posted hm (hw.posted (hopen ho)) ho
  · have hold : w.gate.published = [] := by
      have hprefix := Gate.move_published hm
      rw [hnil] at hprefix
      exact List.prefix_nil.1 hprefix
    cases StreamingCall.step_status h with
    | quiet hview _ _ => exact (hw.shows hold).congr hview
    | posted s _ _ hpub => simp [hnil] at hpub
    | trailers s _ _ _ hpub _ => simp [hnil] at hpub
  · exact StreamingCall.handle_step hw.handle h

/-- Nothing has been published as long as the caller has no outcome. -/
theorem published_nil {w : StreamingCall} (h : hasOutcome w.trace = false) :
    w.gate.published = [] := by
  simp only [StreamingCall.gate, List.filterMap_eq_nil_iff]
  intro e he
  have hpub := List.any_eq_false.1 h e he
  cases e <;> simp [Effect.isPublished, publishedStatus] at hpub ⊢

/-- **A cancel closure that finds the call open ends it with CANCELLED.** -/
theorem cancelled_cancelActive {w : StreamingCall} (hw : Tracked w) (ha : w.active = true)
    (ho : w.call.closed = false) (hnil : w.gate.published = []) : Cancelled w.cancelActive := by
  have hmove := StreamingCall.gate_fail (w := w) (c := w.call) callCancelled rfl
  have honce : w.gate.AtMostOnce := by
    refine ⟨?_, fun _ => ⟨hw.posted ho, hnil⟩⟩
    simp [hw.posted ho, hnil]
  have hgate : w.cancelActive.gate = (w.after (w.call.fail callCancelled)).gate := by
    simp [StreamingCall.cancelActive, ha, StreamingCall.gate, StreamingCall.after,
      StreamingCall.log, StreamingCallState.cancel, publishedStatus]
  refine ⟨?_, (StreamingCall.cancelActive_reset ha).2, fun hne => ?_⟩
  · rw [hgate]
    exact Gate.decided_post ho honce hmove
  · exact absurd ((StreamingCall.cancelActive_quiet w).2.1.trans hnil) hne

/-- **A cancelled call stays cancelled**, whatever happens. -/
theorem cancelled_step {w w' : StreamingCall} {e : CallEvent} (htracked : Tracked w)
    (hw : Cancelled w) (h : w.step e = some w') : Cancelled w' := by
  obtain ⟨m, hm, _, _⟩ := StreamingCall.step_gate h
  refine ⟨hw.decided.move hm, StreamingCall.reset_step hw.reset h, fun hne => ?_⟩
  cases StreamingCall.step_status h with
  | quiet hview hpub _ => exact (hw.shows (hpub ▸ hne)).congr hview
  | posted s hmem hview _ =>
      -- the posted closure is the one of the cancellation, and nothing was published before
      obtain ⟨hpost, hpub⟩ : w.gate.posted = [callCancelled] ∧ w.gate.published = [] := by
        rcases List.append_eq_singleton_iff.1 hw.decided.outcome with ⟨hp, _⟩ | hboth
        · rw [hp] at hmem
          cases hmem
        · exact hboth
      rw [hpost] at hmem
      cases List.mem_singleton.1 hmem
      exact (StreamingCallState.shows_publishError rfl (Or.inl (htracked.shows hpub))).congr hview
  | trailers s _ hopen _ _ _ =>
      have hclosed : w.call.closed = true := hw.decided.closed
      rw [hopen] at hclosed
      cases hclosed

/-- A step that does not overtake the pending closure runs it, or leaves it pending. -/
theorem pending_step {w w' : StreamingCall} {e : CallEvent} (htracked : Tracked w)
    (hw : Pending w) (hover : ¬ Overtakes w e) (h : w.step e = some w') :
    Pending w' ∨ Cancelled w' := by
  by_cases hcancel : w' = w.cancelActive ∨
      ∃ rest, w.strand = .cancel :: rest ∧ w' = { w with strand := rest }.cancelActive
  · right
    rcases hcancel with rfl | ⟨rest, _, rfl⟩
    · exact cancelled_cancelActive htracked hw.active hw.open_ hw.silent
    · have hrest : Tracked { w with strand := rest } :=
        ⟨htracked.active, htracked.posted, htracked.shows, htracked.handle⟩
      exact cancelled_cancelActive hrest hw.active hw.open_ hw.silent
  · left
    have hstream := StreamingCall.step_stream h
    have hsub := (htracked.active hw.active).1
    have hremote : ¬ w.RemoteEnd e := fun hr => hover (Or.inr (Or.inl hr))
    -- nothing overtakes the cancellation: the only local cause is the cancellation itself
    have hcause : ∀ c, w.endCause e = some c → c = .cancel := by
      intro c hc
      by_contra hne
      exact hover (Or.inl ⟨c, hc, hne⟩)
    -- and this step is not the one that runs the queued closure
    have hnotrun : e = .runStrand → ∀ rest, w.strand ≠ .cancel :: rest := by
      rintro rfl rest hs
      simp only [StreamingCall.step, hs, Option.some.injEq] at h
      exact hcancel (Or.inr ⟨rest, hs, h.symm⟩)
    refine ⟨?_, ?_, ?_, ?_⟩
    · rcases hstream.strand with ⟨ts, hts⟩ | ⟨he, t, ht⟩
      · rw [hts]
        exact List.mem_append.2 (Or.inl hw.cancel)
      · have hmem := hw.cancel
        rw [ht] at hmem
        rcases List.mem_cons.1 hmem with hfront | hmem
        · exact absurd (ht.trans (by rw [← hfront])) (hnotrun he w'.strand)
        · exact hmem
    · rcases hstream.active with hsame | ⟨hkept, _⟩ | ⟨_, hr⟩
      · exact hsame.trans hw.active
      · exact hkept
      · exact absurd hr hremote
    · cases hc' : w'.call.closed with
      | false => rfl
      | true =>
          exfalso
          rcases StreamingCall.endCause_complete hsub hw.open_ h hc' with hsome | hr
          · obtain ⟨c, hc⟩ := Option.isSome_iff_exists.1 hsome
            have hcc := hcause c hc
            subst hcc
            exact hcancel (StreamingCall.endCause_cancel hc h)
          · exact hremote hr
    · cases StreamingCall.step_status h with
      | quiet _ hpub _ => exact hpub.trans hw.silent
      | posted s hmem _ _ =>
          rw [htracked.posted hw.open_] at hmem
          cases hmem
      | trailers s hdel _ _ _ _ => exact absurd (Or.inr (Or.inr hdel)) hover

/-! ## Runs -/

theorem not_overtakes_cancel (w : StreamingCall) (onStrand : Bool) :
    ¬ Overtakes w (.cancel onStrand) := by
  rintro (⟨c, hc, hne⟩ | hremote | hdel)
  · simp only [StreamingCall.endCause, Option.ite_none_right_eq_some, Option.some.injEq] at hc
    exact hne hc.2.symm
  · exact hremote
  · rcases hdel with ⟨he, _⟩ | ⟨i, s, he, _⟩ <;> cases he

theorem tracked_cancel {w : StreamingCall} (hw : Tracked w) (onStrand : Bool) :
    Tracked ((w.step (.cancel onStrand)).getD w) := by
  cases h : w.step (.cancel onStrand) with
  | none => exact hw
  | some w' => exact tracked_step hw h

/-- The invariant of the runs whose steps are heeded. -/
structure Kept (x : CancelRequest) : Prop where
  tracked : Tracked x.call
  answered : x.asked = true → Pending x.call ∨ Cancelled x.call

/-- **A heeded request is kept**: its closure waits on the strand, or the call is cancelled. -/
theorem kept_step {x x' : CancelRequest} {e : CallEvent} (hx : Kept x) (hgood : Heeded x e)
    (h : x.step e = some x') : Kept x' := by
  have hquiet : ∀ {w : StreamingCall}, x.call.step e = some w → (x.asked = true →
      x.call.call.closed = false → ¬ Overtakes x.call e) →
      Kept ⟨w, x.asked⟩ := by
    intro w hw hover
    refine ⟨tracked_step hx.tracked hw, fun hasked => ?_⟩
    rcases hx.answered hasked with hp | hc
    · exact pending_step hx.tracked hp (hover hasked hp.open_) hw
    · exact Or.inr (cancelled_step hx.tracked hc hw)
  cases e with
  | cancel onStrand =>
      cases hasked : x.asked with
      | true =>
          -- the request is kept by what the step does, if it does anything
          cases hw : x.call.step (.cancel onStrand) with
          | none =>
              simp only [step, hw, hasked, Option.getD_none, Bool.true_or, Option.some.injEq] at h
              subst h
              exact ⟨hx.tracked, fun _ => hx.answered hasked⟩
          | some w =>
              have hkept := hquiet hw fun _ _ => not_overtakes_cancel x.call onStrand
              simp only [step, hw, hasked, Option.getD_some, Bool.true_or, Option.some.injEq] at h
              subst h
              exact ⟨hkept.tracked, fun _ => hkept.answered hasked⟩
      | false =>
          simp only [step, hasked, Bool.false_or, Option.some.injEq] at h
          subst h
          have htracked := tracked_cancel hx.tracked onStrand
          refine ⟨htracked, fun hnew => ?_⟩
          have hsilent : hasOutcome x.call.trace = false := by simpa using hnew
          obtain ⟨⟨hid, hctx⟩, hactive, hopen⟩ := hgood hasked hsilent
          have hnil := published_nil hsilent
          have hstep : x.call.step (.cancel onStrand) =
              some (if onStrand then x.call.cancelActive else x.call.post .cancel) := by
            simp [StreamingCall.step, hid, hctx]
          simp only [hstep, Option.getD_some]
          cases onStrand with
          | true => exact Or.inr (cancelled_cancelActive hx.tracked hactive hopen hnil)
          | false =>
              exact Or.inl ⟨List.mem_append_right _ List.mem_cons_self, hactive, hopen, hnil⟩
  | shutdown =>
      cases h
      exact hquiet rfl hgood
  | _ =>
      obtain ⟨w, hw, rfl⟩ := Option.map_eq_some_iff.1 h
      exact hquiet hw hgood

theorem kept_new (kind : CallKind) (ctx : ClientContext) : Kept (new kind ctx) :=
  ⟨tracked_new kind (some ctx), fun h => by cases h⟩

/-- **A kept request ends the call with CANCELLED**, and resets its stream, once the strand is
drained. -/
theorem Kept.cancelled {x : CancelRequest} (hx : Kept x) (hasked : x.asked = true) :
    (.cancel ∈ x.call.strand ∨ ResetIssued x.call.trace) ∧ x.call.EndsWith callCancelled := by
  rcases hx.answered hasked with hp | hc
  · refine ⟨Or.inl hp.cancel, fun a ha => ?_, fun hstrand => ?_⟩
    · have hnone := StreamingCall.finishes_of_shows (hx.tracked.shows hp.silent) ha
      cases hnone
    · have hmem := hp.cancel
      rw [hstrand] at hmem
      cases hmem
  · refine ⟨Or.inr hc.reset, fun a ha => ?_, fun _ hioc => ?_⟩
    · by_cases hnil : x.call.gate.published = []
      · have hnone := StreamingCall.finishes_of_shows (hx.tracked.shows hnil) ha
        cases hnone
      · exact (Option.some.inj (StreamingCall.finishes_of_shows (hc.shows hnil) ha)).symm
    · have hposted : x.call.gate.posted = [] := by simp [StreamingCall.gate, hioc]
      have hpublished : x.call.gate.published ≠ [] := by
        intro hnil
        have hout := hc.decided.outcome
        simp [hposted, hnil] at hout
      have hreports := StreamingCall.reports_of_shows (hc.shows hpublished)
      exact ⟨hreports.finishes hx.tracked.handle, hreports⟩

end CancelRequest

/-- **A Cancel that finds the stream open is not lost.** In every run of a streaming call in which
each `Cancel` of a call without a published status finds it connected, active and open, and nothing
overtakes the closure it posts: once `Cancel` was called, its closure waits on the strand or the
stream is reset, and the call ends with CANCELLED. -/
theorem streaming_cancel_not_lost (kind : CallKind) (ctx : ClientContext) (es : List CallEvent)
    (x : CancelRequest)
    (hheeded : CancelRequest.machine.Along CancelRequest.Heeded (CancelRequest.new kind ctx) es)
    (hrun : CancelRequest.machine.run (CancelRequest.new kind ctx) es = some x)
    (hasked : x.asked = true) :
    (.cancel ∈ x.call.strand ∨ ResetIssued x.call.trace) ∧ x.call.EndsWith callCancelled := by
  have hkept := Machine.run_invariant_along (M := CancelRequest.machine) (I := CancelRequest.Kept)
    (fun _ _ _ hx hgood h => CancelRequest.kept_step hx hgood h) es _ x
    (CancelRequest.kept_new kind ctx) hheeded hrun
  exact hkept.cancelled hasked

/-- The same for a bidirectional call that is cancelled right after its submission, until its status
is published. -/
theorem streaming_cancel_not_lost_example :
    ∃ x, CancelRequest.machine.run (CancelRequest.new .bidi deadlineContext)
        [.submit (.accepted 1), .cancel false, .runStrand, .runIoc 0] = some x ∧
      (.cancel ∈ x.call.strand ∨ ResetIssued x.call.trace) ∧ x.call.EndsWith callCancelled := by
  refine ⟨_, rfl, streaming_cancel_not_lost .bidi deadlineContext
    [.submit (.accepted 1), .cancel false, .runStrand, .runIoc 0] _ ?_ rfl rfl⟩
  refine ⟨fun h => (by cases h), fun x1 h1 => ⟨?_, fun x2 h2 => ⟨?_, fun x3 h3 => ⟨?_, ?_⟩⟩⟩⟩
  · cases h1
    exact fun _ _ => ⟨⟨rfl, rfl⟩, rfl, rfl⟩
  · cases h1
    cases h2
    rintro _ _ (⟨c, hc, hne⟩ | ⟨code, rest, hs⟩ | ⟨_, hd, hs⟩ | ⟨i, s, he, _⟩)
    · cases hc
      exact hne rfl
    · cases hs
    · cases hs
    · cases he
  · cases h1
    cases h2
    cases h3
    intro _ hopen
    cases hopen
  · intro _ _
    trivial

/-- **A Cancel of a queued streaming call is lost**, whatever the streaming kind: the call goes on
to run on its stream, its strand is empty, and it has neither an outcome nor a reset. -/
theorem not_streaming_cancel_not_lost :
    ¬ ∃ kind : CallKind, ∀ (ctx : ClientContext) (es : List CallEvent) (x : CancelRequest),
      CancelRequest.machine.run (CancelRequest.new kind ctx) es = some x → x.asked = true →
        (.cancel ∈ x.call.strand ∨ ResetIssued x.call.trace) ∧ x.call.EndsWith callCancelled := by
  rintro ⟨kind, h⟩
  have hlost := h deadlineContext [.cancel false, .submit (.accepted 1)] _ rfl rfl
  rcases hlost.1 with hmem | hreset
  · cases hmem
  · cases kind <;> exact absurd hreset (by decide)

end Rpcpio.Client
