import Rpcpio.Client.StreamingCall
import Rpcpio.Client.UnaryCall

/-!
# The request handle after `on_close`

The session frees a request when it invokes `on_close`, and the client learns of it from a closure
that `on_close` posts to the strand. What is already queued on the strand runs in between. A run is
safe if no closure that uses the request is queued when `on_close` is invoked, and, for a unary
call, no cancellation is between reading `cancel_stream_` and posting its closure, or reads it
afterwards. `request_untouched_after_close` states it for all call kinds.
-/

set_option autoImplicit false

namespace Rpcpio.Client

open Rpcpio.Library Rpcpio.Protocol

/-- A call on the request handle. -/
def Effect.isRequest : Effect → Prop
  | .request _ => True
  | _ => False

/-- The session has invoked `on_close`. -/
def Effect.isClose (e : Effect) : Prop := e = .sessionClosed

/-- Effects that neither use the request nor close the stream. -/
def Effect.isNeutral (e : Effect) : Prop := ¬ e.isRequest ∧ ¬ e.isClose

/-- The trace uses no request after `on_close`. -/
abbrev RequestOrder (tr : List Effect) : Prop := NeverAfter Effect.isClose Effect.isRequest tr

theorem requestOrder_append_neutral {tr es : List Effect} (h : RequestOrder tr)
    (hes : ∀ e ∈ es, e.isNeutral) : RequestOrder (tr ++ es) :=
  neverAfter_append h (neverAfter_of_forall_not fun e he => (hes e he).1)
    fun _ e he => (hes e he).1

/-- Requests may be used while the stream is open. -/
theorem requestOrder_append_open {tr : List Effect} (h : RequestOrder tr)
    (hopen : Effect.sessionClosed ∉ tr) (rs : List RequestCall) :
    RequestOrder (tr ++ rs.map .request) := by
  refine neverAfter_append h (neverAfter_of_forall_not_left fun e he => ?_) ?_
  · obtain ⟨r, _, rfl⟩ := List.mem_map.1 he
    simp [Effect.isClose]
  · rintro ⟨e, he, rfl⟩
    exact absurd he hopen

/-- The trace of a stream: requests and `on_close` in order, and no `on_close` while the session
holds the stream open. -/
def OrderedTrace (closed : Bool) (tr : List Effect) : Prop :=
  RequestOrder tr ∧ (closed = false → Effect.sessionClosed ∉ tr)

theorem OrderedTrace.neutral {closed : Bool} {tr ns : List Effect} (h : OrderedTrace closed tr)
    (hns : ∀ e ∈ ns, e.isNeutral) : OrderedTrace closed (tr ++ ns) := by
  refine ⟨requestOrder_append_neutral h.1 hns, fun hopen hmem => ?_⟩
  rcases List.mem_append.1 hmem with hmem | hmem
  · exact h.2 hopen hmem
  · exact (hns _ hmem).2 rfl

/-- A step may use the request, as long as it does not do so on a closed stream. -/
theorem OrderedTrace.requests {closed : Bool} {tr : List Effect} {rs : List RequestCall}
    (h : OrderedTrace closed tr) (hrs : closed = true → rs = []) :
    OrderedTrace closed (tr ++ rs.map .request) := by
  cases closed with
  | false =>
      refine ⟨requestOrder_append_open h.1 (h.2 rfl) rs, fun hopen hmem => ?_⟩
      rcases List.mem_append.1 hmem with hmem | hmem
      · exact h.2 hopen hmem
      · obtain ⟨r, _, hr⟩ := List.mem_map.1 hmem
        cases hr
  | true =>
      rw [hrs rfl, List.map_nil, List.append_nil]
      exact h

theorem contextReads_neutral (ctx : Option ClientContext) :
    ∀ e ∈ contextReads ctx, e.isNeutral := by
  intro e he
  unfold contextReads at he
  split at he
  · rw [List.mem_singleton] at he
    subst he
    exact ⟨id, by simp [Effect.isClose]⟩
  · cases he

theorem published_neutral (s : Status) : (Effect.published s).isNeutral :=
  ⟨id, by simp [Effect.isClose]⟩

namespace StreamingCallState

/-- The request that the writer holds. -/
def req (c : StreamingCallState) : Option StreamId := c.writer.bind fun x => x.req

@[simp] theorem req_fail (c : StreamingCallState) (s : Status) : (c.fail s).1.req = c.req :=
  fail_frame (fun _ => rfl) c s

@[simp] theorem req_onStreamClose (c : StreamingCallState) (errorCode : Nat) :
    (c.onStreamClose errorCode).1.req = none := by
  simp only [onStreamClose]
  cases hw : c.writer <;> simp only [Option.map] <;> split <;> rfl

theorem req_mapWriter {c : StreamingCallState} {f : RawClientWriterImpl → RawClientWriterImpl}
    (hf : ∀ x, (f x).req = x.req) : { c with writer := c.writer.map f }.req = c.req := by
  cases hw : c.writer <;> simp [req, hw, hf]

theorem req_deliver (c : StreamingCallState) (p : Bytes) : (c.deliver p).req = c.req := by
  simp only [deliver]
  split
  · rfl
  · exact req_mapWriter fun _ => rfl

@[simp] theorem req_onData (c : StreamingCallState) (maxMsgSize : Nat) (chunk : Bytes) :
    (c.onData maxMsgSize chunk).1.req = c.req :=
  onData_frame (fun _ _ => rfl) req_deliver req_fail c maxMsgSize chunk

@[simp] theorem req_setFinalStatus (c : StreamingCallState) (s : Status) :
    (c.setFinalStatus s).req = c.req := by
  cases hw : c.writer <;> simp [req, setFinalStatus, hw, RawClientWriterImpl.setFinalStatus]

@[simp] theorem req_onTrailers (c : StreamingCallState) (trailers : HeaderMap) :
    (c.onTrailers trailers).req = c.req :=
  onTrailers_frame (fun _ s => req_setFinalStatus _ s) c trailers

@[simp] theorem req_runIoc (c : StreamingCallState) (t : IocTask) : (c.runIoc t).req = c.req :=
  runIoc_frame (fun _ s => req_setFinalStatus _ s) (fun _ s => req_setFinalStatus _ s)
    (fun _ => rfl) c t

@[simp] theorem req_attach (c : StreamingCallState) (head : ResponseHead) :
    (c.attach head).1.req = c.req :=
  attach_frame req_fail c head

end StreamingCallState

namespace StreamingCall

/-- A queued closure that will not use the request, as things stand. -/
def Harmless (active : Bool) : StrandTask → Prop
  | .enqueue _ => False
  | .writesDone => False
  | .cancel => active = false
  | _ => True

instance (active : Bool) : DecidablePred (Harmless active) := fun t => by
  cases t <;> unfold Harmless <;> infer_instance

/-- The condition on a step under which no request is used after `on_close`: when `on_close` is
invoked, no closure that uses the request is queued; and the slot is not emitted on the strand
between `on_close` and the closure it posted. -/
def ClosesQuietly (w : StreamingCall) : CallEvent → Prop
  | .close _ => ∀ t ∈ w.strand, Harmless w.active t
  | .cancel true => w.sessionClosed = true → w.active = false
  | _ => True

instance (w : StreamingCall) (e : CallEvent) : Decidable (w.ClosesQuietly e) := by
  simp only [ClosesQuietly]
  split <;> infer_instance

/-- The closure posted by `on_close` has harmless closures before it, or has run. -/
def Closing (strand : List StrandTask) (active : Bool) (req : Option StreamId) : Prop :=
  (∃ pre errorCode post, strand = pre ++ .close errorCode :: post ∧
    ∀ t ∈ pre, Harmless active t) ∨ (active = false ∧ req = none)

structure RequestInvariant (w : StreamingCall) : Prop where
  ordered : RequestOrder w.trace
  unclosed : w.sessionClosed = false → Effect.sessionClosed ∉ w.trace
  closing : w.sessionClosed = true → Closing w.strand w.active w.call.req
  fresh : w.submitted = false → w.streamId = none ∧ w.sessionClosed = false

theorem RequestInvariant.orderedTrace {w : StreamingCall} (hw : RequestInvariant w) :
    OrderedTrace w.sessionClosed w.trace :=
  ⟨hw.ordered, hw.unclosed⟩

theorem Closing.post {strand : List StrandTask} {active : Bool} {req : Option StreamId}
    (h : Closing strand active req) (t : StrandTask) : Closing (strand ++ [t]) active req := by
  rcases h with ⟨pre, errorCode, post, rfl, hpre⟩ | h
  · exact Or.inl ⟨pre, errorCode, post ++ [t], by simp, hpre⟩
  · exact Or.inr h

theorem Closing.inactive {strand : List StrandTask} {active : Bool} {req : Option StreamId}
    (h : Closing strand active req) : Closing strand false req := by
  rcases h with ⟨pre, errorCode, post, rfl, hpre⟩ | ⟨_, h⟩
  · refine Or.inl ⟨pre, errorCode, post, rfl, fun t ht => ?_⟩
    have h := hpre t ht
    cases t <;> first | exact h | rfl
  · exact Or.inr ⟨rfl, h⟩

/-- The calls on the request that a closure on the strand makes. -/
def taskRequests (w : StreamingCall) : StrandTask → List RequestCall
  | .enqueue _ => if w.call.req.isSome then [.resume] else []
  | .writesDone => if w.call.req.isSome then [.resume] else []
  | .cancel => if w.active then [.cancel] else []
  | _ => []

/-- The calls on the request that an event makes. -/
def requests (w : StreamingCall) : CallEvent → List RequestCall
  | .runStrand => (w.strand.head?.map w.taskRequests).getD []
  | .cancel true => if w.active then [.cancel] else []
  | _ => []

/-- Effects that only add neutral ones to given calls on the request. -/
def Adds (w w' : StreamingCall) (rs : List RequestCall) : Prop :=
  ∃ ns, (∀ e ∈ ns, e.isNeutral) ∧ w'.trace = w.trace ++ rs.map .request ++ ns

theorem adds_nil {w w' : StreamingCall} (h : w'.trace = w.trace) : Adds w w' [] :=
  ⟨[], by simp, by simp [h]⟩

/-- The fields that the session and the submit closure own. -/
def SameSession (w w' : StreamingCall) : Prop :=
  w'.strand = w.strand ∧ w'.sessionClosed = w.sessionClosed ∧ w'.submitted = w.submitted ∧
    w'.streamId = w.streamId

theorem onWriter_requests {w : StreamingCall}
    {f : RawClientWriterImpl → RawClientWriterImpl × List RequestCall}
    (hreq : ∀ x, (f x).1.req = x.req)
    (hcalls : ∀ x, (f x).2 = if x.req.isSome then [.resume] else []) :
    Adds w (w.onWriter f) (if w.call.req.isSome then [.resume] else []) ∧
      SameSession w (w.onWriter f) ∧ (w.onWriter f).active = w.active ∧
        (w.onWriter f).call.req = w.call.req := by
  simp only [onWriter]
  cases hw : w.call.writer with
  | none =>
      have hr : w.call.req = none := by simp [StreamingCallState.req, hw]
      exact ⟨by simpa [hr] using adds_nil rfl, ⟨rfl, rfl, rfl, rfl⟩, rfl, rfl⟩
  | some x =>
      have hr : w.call.req = x.req := by simp [StreamingCallState.req, hw]
      refine ⟨⟨[], by simp, ?_⟩, ⟨rfl, rfl, rfl, rfl⟩, rfl, ?_⟩
      · simp [log, hcalls, hr]
      · simp [log, StreamingCallState.req, hw, hreq]

/-- The closure of the cancellation slot. -/
theorem cancelActive_requests (w : StreamingCall) :
    Adds w w.cancelActive (if w.active then [.cancel] else []) ∧ SameSession w w.cancelActive ∧
      w.cancelActive.active = w.active ∧ w.cancelActive.call.req = w.call.req := by
  simp only [cancelActive]
  by_cases ha : w.active = true
  · simp only [ha, if_true]
    refine ⟨⟨[], by simp, by simp [after, log]⟩, ⟨rfl, rfl, rfl, rfl⟩, ha, ?_⟩
    simp [after, StreamingCallState.cancel]
  · have ha' : w.active = false := by simpa using ha
    rw [if_neg ha, if_neg ha]
    exact ⟨adds_nil rfl, ⟨rfl, rfl, rfl, rfl⟩, rfl, rfl⟩

/-- **What a closure on the strand does to the request.** -/
theorem runTask_requests (w : StreamingCall) (t : StrandTask) :
    Adds w (w.runTask t) (w.taskRequests t) ∧ SameSession w (w.runTask t) ∧
      (((w.runTask t).active = w.active ∧ (w.runTask t).call.req = w.call.req ∧
          ∀ errorCode, t ≠ .close errorCode) ∨
        (w.runTask t).active = false ∧ (w.runTask t).call.req = none) := by
  cases t with
  | data maxMsgSize chunk =>
      exact ⟨adds_nil rfl, ⟨rfl, rfl, rfl, rfl⟩,
        Or.inl ⟨rfl, by simp [runTask, after], by simp⟩⟩
  | trailers h =>
      refine ⟨⟨_, ?_, by simp only [taskRequests, List.map_nil, List.append_nil]; rfl⟩,
        ⟨rfl, rfl, rfl, rfl⟩, Or.inl ⟨rfl, by simp [runTask, log], by simp⟩⟩
      intro e he
      split at he
      · cases he
      · rw [List.mem_singleton] at he
        subst he
        exact published_neutral _
  | close errorCode =>
      exact ⟨adds_nil rfl, ⟨rfl, rfl, rfl, rfl⟩, Or.inr ⟨rfl, by simp [runTask, after]⟩⟩
  | enqueue frame =>
      obtain ⟨h1, h2, h3, h4⟩ := onWriter_requests (w := w)
        (f := fun x => x.enqueueOnStrand frame) (fun _ => rfl) fun _ => rfl
      exact ⟨h1, h2, Or.inl ⟨h3, h4, by simp⟩⟩
  | writesDone =>
      obtain ⟨h1, h2, h3, h4⟩ := onWriter_requests (w := w)
        (f := fun x => x.writesDoneOnStrand) (fun _ => rfl) fun _ => rfl
      exact ⟨h1, h2, Or.inl ⟨h3, h4, by simp⟩⟩
  | cancel =>
      obtain ⟨h1, h2, h3, h4⟩ := cancelActive_requests w
      exact ⟨h1, h2, Or.inl ⟨h3, h4, by simp⟩⟩
  | deadline =>
      exact ⟨adds_nil rfl, ⟨rfl, rfl, rfl, rfl⟩,
        Or.inl ⟨rfl, by simp [runTask, after], by simp⟩⟩

/-- A harmless closure makes no call on the request. -/
theorem taskRequests_of_harmless {w : StreamingCall} {t : StrandTask} (h : Harmless w.active t) :
    w.taskRequests t = [] := by
  cases t with
  | enqueue frame => exact absurd h id
  | writesDone => exact absurd h id
  | cancel => simp [taskRequests, show w.active = false from h]
  | _ => rfl

/-- After the closure of `on_close` no closure makes a call on the request. -/
theorem taskRequests_of_closed {w : StreamingCall} (ha : w.active = false)
    (hr : w.call.req = none) (t : StrandTask) : w.taskRequests t = [] := by
  cases t <;> simp [taskRequests, ha, hr]

/-- A step that makes no call on the request: it posts at most one closure to the strand, may take
the stream off the active map, and leaves the request and the session as they are. -/
structure Quiet (w w' : StreamingCall) : Prop where
  trace : ∃ ns, (∀ e ∈ ns, e.isNeutral) ∧ w'.trace = w.trace ++ ns
  strand : w'.strand = w.strand ∨ ∃ t, w'.strand = w.strand ++ [t]
  active : w'.active = w.active ∨ w'.active = false
  req : w'.call.req = w.call.req
  sessionClosed : w'.sessionClosed = w.sessionClosed
  submitted : w'.submitted = w.submitted
  streamId : w'.streamId = w.streamId

theorem RequestInvariant.quiet {w w' : StreamingCall} (hw : RequestInvariant w)
    (hq : Quiet w w') : RequestInvariant w' := by
  obtain ⟨ns, hns, ht⟩ := hq.trace
  have hordered : OrderedTrace w'.sessionClosed w'.trace := by
    rw [ht, hq.sessionClosed]
    exact hw.orderedTrace.neutral hns
  refine ⟨hordered.1, hordered.2, ?_, ?_⟩
  · intro hclosed
    have hcl := hw.closing (hq.sessionClosed ▸ hclosed)
    have hact : Closing w.strand w'.active w'.call.req := by
      rw [hq.req]
      rcases hq.active with ha | ha
      · rwa [ha]
      · rw [ha]
        exact hcl.inactive
    rcases hq.strand with hs | ⟨t, hs⟩
    · rwa [hs]
    · rw [hs]
      exact hact.post t
  · rw [hq.submitted, hq.streamId, hq.sessionClosed]
    exact hw.fresh

/-- Quiet steps that do not touch the trace. -/
theorem quiet_of_trace {w w' : StreamingCall} (ht : w'.trace = w.trace)
    (hs : w'.strand = w.strand ∨ ∃ t, w'.strand = w.strand ++ [t])
    (ha : w'.active = w.active ∨ w'.active = false) (hr : w'.call.req = w.call.req)
    (hc : w'.sessionClosed = w.sessionClosed) (hsub : w'.submitted = w.submitted)
    (hid : w'.streamId = w.streamId) : Quiet w w' :=
  ⟨⟨[], by simp, by simp [ht]⟩, hs, ha, hr, hc, hsub, hid⟩

theorem quiet_refl (w : StreamingCall) : Quiet w w :=
  quiet_of_trace rfl (Or.inl rfl) (Or.inl rfl) rfl rfl rfl rfl

theorem quiet_failActive (w : StreamingCall) (s : Status) : Quiet w (w.failActive s) := by
  simp only [failActive]
  split
  · exact quiet_of_trace rfl (Or.inl rfl) (Or.inr rfl) (by simp [after]) rfl rfl rfl
  · exact quiet_refl w

/-- The closure at the head of the strand runs. -/
theorem requestInvariant_runStrand {w : StreamingCall} {t : StrandTask} {rest : List StrandTask}
    (hw : RequestInvariant w) (hs : w.strand = t :: rest) :
    RequestInvariant ({ w with strand := rest }.runTask t) := by
  obtain ⟨⟨ns, hns, ht⟩, ⟨hstrand, hclosed, hsub, hid⟩, hafter⟩ :=
    runTask_requests { w with strand := rest } t
  -- while the stream is closed, the closure is harmless or finds neither request nor active stream
  have hnone : w.sessionClosed = true → w.taskRequests t = [] ∧
      Closing rest ({ w with strand := rest }.runTask t).active
        ({ w with strand := rest }.runTask t).call.req := by
    intro hc
    rcases hw.closing hc with ⟨pre, errorCode, post, hpre, hall⟩ | ⟨ha, hr⟩
    · cases pre with
      | nil =>
          rw [hs, List.nil_append, List.cons.injEq] at hpre
          obtain ⟨rfl, rfl⟩ := hpre
          refine ⟨rfl, Or.inr ?_⟩
          rcases hafter with ⟨_, _, hne⟩ | hafter
          · exact absurd rfl (hne errorCode)
          · exact hafter
      | cons p pre =>
          rw [hs, List.cons_append, List.cons.injEq] at hpre
          obtain ⟨rfl, rfl⟩ := hpre
          refine ⟨taskRequests_of_harmless (hall t List.mem_cons_self), ?_⟩
          rcases hafter with ⟨ha, hr, _⟩ | ⟨ha, hr⟩
          · rw [ha, hr]
            exact Or.inl ⟨pre, errorCode, post, rfl, fun u hu => hall u (List.mem_cons_of_mem _ hu)⟩
          · exact Or.inr ⟨ha, hr⟩
    · refine ⟨taskRequests_of_closed ha hr t, Or.inr ?_⟩
      rcases hafter with ⟨ha', hr', _⟩ | hafter
      · exact ⟨ha'.trans ha, hr'.trans hr⟩
      · exact hafter
  have hreq : ({ w with strand := rest } : StreamingCall).taskRequests t = w.taskRequests t := by
    cases t <;> rfl
  have hordered : OrderedTrace ({ w with strand := rest }.runTask t).sessionClosed
      ({ w with strand := rest }.runTask t).trace := by
    rw [ht, hreq, hclosed]
    exact (hw.orderedTrace.requests fun hc => (hnone hc).1).neutral hns
  refine ⟨hordered.1, hordered.2, ?_, ?_⟩
  · intro hc
    rw [hstrand]
    exact (hnone (hclosed.symm.trans hc)).2
  · rw [hsub, hid, hclosed]
    exact hw.fresh

theorem iocEffects_neutral (c : StreamingCallState) (t : IocTask) :
    ∀ e ∈ iocEffects c t, e.isNeutral := by
  intro e he
  cases t with
  | failed s =>
      rw [iocEffects, List.mem_singleton] at he
      subst he
      exact published_neutral s
  | streamClosed errorCode trailersDone =>
      simp only [iocEffects] at he
      split at he
      · cases he
      · rw [List.mem_singleton] at he
        subst he
        exact published_neutral _
  | trailersOnly s =>
      simp only [iocEffects] at he
      split at he
      · cases he
      · rw [List.mem_singleton] at he
        subst he
        exact published_neutral s

/-- The submit closure runs before the session can close anything. -/
theorem requestInvariant_submit {w : StreamingCall} (hw : RequestInvariant w)
    (hsub : w.submitted = false) (o : SubmitOutcome) : RequestInvariant (w.submit o) := by
  have hclosed := (hw.fresh hsub).2
  have htrace : ∃ ns, (∀ e ∈ ns, e.isNeutral) ∧ (w.submit o).trace = w.trace ++ ns := by
    cases o with
    | refused s => exact ⟨[], by simp, (List.append_nil _).symm⟩
    | invalid s => exact ⟨_, contextReads_neutral w.call.ctx, rfl⟩
    | rejected s => exact ⟨_, contextReads_neutral w.call.ctx, rfl⟩
    | accepted id => exact ⟨_, contextReads_neutral w.call.ctx, rfl⟩
  have hsession : (w.submit o).sessionClosed = w.sessionClosed := by cases o <;> rfl
  have hsubmitted : (w.submit o).submitted = true := by cases o <;> rfl
  obtain ⟨ns, hns, ht⟩ := htrace
  have hordered : OrderedTrace (w.submit o).sessionClosed (w.submit o).trace := by
    rw [ht, hsession]
    exact hw.orderedTrace.neutral hns
  refine ⟨hordered.1, hordered.2, fun hc => ?_, fun hs => ?_⟩
  · rw [hsession, hclosed] at hc
    cases hc
  · rw [hsubmitted] at hs
    cases hs

/-- The cancellation slot is emitted on the strand. -/
theorem requestInvariant_cancelActive {w : StreamingCall} (hw : RequestInvariant w)
    (hgood : w.sessionClosed = true → w.active = false) : RequestInvariant w.cancelActive := by
  obtain ⟨⟨ns, hns, ht⟩, ⟨hstrand, hclosed, hsub, hid⟩, hact, hreq⟩ := cancelActive_requests w
  have hordered : OrderedTrace w.cancelActive.sessionClosed w.cancelActive.trace := by
    rw [ht, hclosed]
    exact (hw.orderedTrace.requests fun hc => by simp [hgood hc]).neutral hns
  refine ⟨hordered.1, hordered.2, ?_, ?_⟩
  · intro hc
    rw [hstrand, hact, hreq]
    exact hw.closing (hclosed.symm.trans hc)
  · rw [hsub, hid, hclosed]
    exact hw.fresh

/-- **No step uses the request once `on_close` has been invoked**, if the stream closes quietly. -/
theorem requestInvariant_step {w w' : StreamingCall} {e : CallEvent} (hw : RequestInvariant w)
    (hgood : w.ClosesQuietly e) (h : w.step e = some w') : RequestInvariant w' := by
  -- an event that posts one closure to the strand and does nothing else
  have hposted : ∀ {v : StreamingCall} (t : StrandTask), v.trace = w.trace →
      v.strand = w.strand ++ [t] → v.active = w.active → v.call.req = w.call.req →
        v.sessionClosed = w.sessionClosed → v.submitted = w.submitted →
          v.streamId = w.streamId → RequestInvariant v := by
    intro v t h1 h2 h3 h4 h5 h6 h7
    exact hw.quiet (quiet_of_trace h1 (Or.inr ⟨t, h2⟩) (Or.inl h3) h4 h5 h6 h7)
  cases step_move h with
  | submit o hsub => exact requestInvariant_submit hw hsub o
  | response head =>
      refine hw.quiet ⟨⟨_, ?_, rfl⟩, Or.inl rfl, Or.inl rfl, by simp [onResponse, after, log], rfl,
        rfl, rfl⟩
      intro e he
      split at he
      · exact contextReads_neutral _ e he
      · cases he
  | data maxMsgSize chunk => exact hposted _ rfl rfl rfl rfl rfl rfl rfl
  | trailers hd => exact hposted _ rfl rfl rfl rfl rfl rfl rfl
  | close errorCode hopen =>
      -- `on_close` is recorded; the closures before the one it posts are harmless by assumption
      simp only [isOpen, Bool.and_eq_true] at hopen
      refine ⟨?_, fun hc => (by cases hc), fun _ => Or.inl ⟨w.strand, errorCode, [], rfl, hgood⟩,
        ?_⟩
      · exact neverAfter_append hw.ordered (neverAfter_of_forall_not fun e he => by
          rw [List.mem_singleton] at he
          subst he
          exact id) fun _ e he => by
            rw [List.mem_singleton] at he
            subst he
            exact id
      · intro hsub
        have hid := hopen.1
        rw [(hw.fresh hsub).1] at hid
        cases hid
  | task t rest hs => exact requestInvariant_runStrand hw hs
  | ioc i t =>
      refine hw.quiet ⟨⟨_, ?_, rfl⟩, Or.inl rfl, Or.inl rfl, by simp [log], rfl, rfl, rfl⟩
      exact iocEffects_neutral _ _
  | timerHandler t => exact hposted _ rfl rfl rfl rfl rfl rfl rfl
  | write payload frame => exact hposted _ rfl rfl rfl rfl rfl rfl rfl
  | writesDone => exact hposted _ rfl rfl rfl rfl rfl rfl rfl
  | poll len =>
      refine hw.quiet (quiet_of_trace rfl (Or.inl rfl) (Or.inl rfl) ?_ rfl rfl rfl)
      exact StreamingCallState.req_mapWriter fun x => x.req_clientWriterGenerator len
  | cancel => exact requestInvariant_cancelActive hw hgood
  | postCancel => exact hposted _ rfl rfl rfl rfl rfl rfl rfl
  | goaway lastStreamId => exact hw.quiet (quiet_failActive w _)
  | shutdown => exact hw.quiet (quiet_failActive w _)
  | _ => exact hw.quiet (quiet_of_trace rfl (Or.inl rfl) (Or.inl rfl) rfl rfl rfl rfl)

end StreamingCall

namespace UnaryCall

/-- The condition on a step under which no request is used after `on_close`: when `on_close` is
invoked, no cancel closure is queued and no thread is about to post one; afterwards no cancellation
finds `cancel_stream_` still set. -/
def ClosesQuietly (u : UnaryCall) : UnaryCallEvent → Prop
  | .close _ => .cancel ∉ u.strand ∧ .invokeCancelStream true ∉ u.threads
  | .thread i =>
      u.sessionClosed = true → u.threads[i]? = some .copyCancelStream → u.cancelStream = false
  | .cancelOnStrand => u.sessionClosed = true → u.cancelStream = false
  | _ => True

instance (u : UnaryCall) (e : UnaryCallEvent) : Decidable (u.ClosesQuietly e) :=
  match e with
  | .close _ => inferInstanceAs (Decidable (_ ∧ _))
  | .thread _ => inferInstanceAs (Decidable (_ → _ → _))
  | .cancelOnStrand => inferInstanceAs (Decidable (_ → _))
  | .submitCheck _ | .failPending _ | .submitBuild _ | .setCancelStream | .cancelSubmitted
  | .armTimer | .response _ | .data _ | .trailers _ | .runStrand | .runIoc _ | .expire
  | .timerHandler | .cancel | .runHandler _ | .goaway _ | .shutdown => isTrue trivial

structure RequestInvariant (u : UnaryCall) : Prop where
  ordered : RequestOrder u.trace
  unclosed : u.sessionClosed = false → Effect.sessionClosed ∉ u.trace
  quiet : u.sessionClosed = true →
    u.phase = .done ∧ .cancel ∉ u.strand ∧ .invokeCancelStream true ∉ u.threads

theorem RequestInvariant.orderedTrace {u : UnaryCall} (hu : RequestInvariant u) :
    OrderedTrace u.sessionClosed u.trace :=
  ⟨hu.ordered, hu.unclosed⟩

/-- A step that adds neutral effects, and under a closed stream queues no cancellation. -/
theorem RequestInvariant.neutral {u u' : UnaryCall} (hu : RequestInvariant u)
    (ht : ∃ ns, (∀ e ∈ ns, e.isNeutral) ∧ u'.trace = u.trace ++ ns)
    (hc : u'.sessionClosed = u.sessionClosed)
    (hq : u.sessionClosed = true → u.phase = .done → .cancel ∉ u.strand →
      .invokeCancelStream true ∉ u.threads →
        u'.phase = .done ∧ .cancel ∉ u'.strand ∧ .invokeCancelStream true ∉ u'.threads) :
    RequestInvariant u' := by
  obtain ⟨ns, hns, ht⟩ := ht
  have hordered : OrderedTrace u'.sessionClosed u'.trace := by
    rw [ht, hc]
    exact hu.orderedTrace.neutral hns
  refine ⟨hordered.1, hordered.2, fun hclosed => ?_⟩
  obtain ⟨h1, h2, h3⟩ := hu.quiet (hc ▸ hclosed)
  exact hq (hc ▸ hclosed) h1 h2 h3

/-- A step that does not touch the trace. -/
theorem RequestInvariant.silent {u u' : UnaryCall} (hu : RequestInvariant u)
    (ht : u'.trace = u.trace) (hc : u'.sessionClosed = u.sessionClosed)
    (hq : u.sessionClosed = true → u.phase = .done → .cancel ∉ u.strand →
      .invokeCancelStream true ∉ u.threads →
        u'.phase = .done ∧ .cancel ∉ u'.strand ∧ .invokeCancelStream true ∉ u'.threads) :
    RequestInvariant u' :=
  hu.neutral ⟨[], by simp, by simp [ht]⟩ hc hq

/-- Using the request while the stream is open. -/
theorem requestInvariant_cancelOnStream {u : UnaryCall} (hu : RequestInvariant u)
    (hopen : u.sessionClosed = false) : RequestInvariant u.cancelOnStream := by
  have hrs : u.sessionClosed = true → [RequestCall.cancel] = [] := by simp [hopen]
  have hordered : OrderedTrace u.sessionClosed u.cancelOnStream.trace :=
    hu.orderedTrace.requests hrs
  refine ⟨hordered.1, hordered.2, fun hc => ?_⟩
  rw [show u.cancelOnStream.sessionClosed = u.sessionClosed from rfl, hopen] at hc
  cases hc

theorem requestInvariant_failActive {u : UnaryCall} (hu : RequestInvariant u) (s : Status) :
    RequestInvariant (u.failActive s) := by
  simp only [failActive]
  split
  · exact hu.silent rfl rfl fun _ h1 h2 h3 => ⟨h1, h2, h3⟩
  · exact hu

/-- An access of a thread. -/
theorem requestInvariant_stepThread {u : UnaryCall} {i : Nat} {pc : Pc} (hu : RequestInvariant u)
    (hi : u.threads[i]? = some pc)
    (hgood : u.sessionClosed = true → u.threads[i]? = some .copyCancelStream →
      u.cancelStream = false) : RequestInvariant (u.stepThread i pc) := by
  have hset : ∀ x : Pc, x ≠ .invokeCancelStream true → .invokeCancelStream true ∉ u.threads →
      .invokeCancelStream true ∉ u.threads.set i x := by
    intro x hx hn hmem
    rcases List.mem_or_eq_of_mem_set hmem with hmem | hmem
    · exact hn hmem
    · exact hx hmem.symm
  have herase : .invokeCancelStream true ∉ u.threads →
      .invokeCancelStream true ∉ u.threads.eraseIdx i :=
    fun hn hmem => hn (List.mem_of_mem_eraseIdx hmem)
  cases pc with
  | storeCancelled =>
      exact hu.silent rfl rfl fun _ h1 h2 h3 => ⟨h1, h2, hset _ (by simp) h3⟩
  | copyCancelStream =>
      -- on a closed stream the copy is empty, by the condition on the step
      refine hu.silent rfl rfl fun hc h1 h2 h3 => ⟨h1, h2, hset _ ?_ h3⟩
      simp [hgood hc hi]
  | invokeCancelStream copied =>
      have hmem : Pc.invokeCancelStream copied ∈ u.threads := List.mem_of_getElem? hi
      cases copied with
      | false => exact hu.silent rfl rfl fun _ h1 h2 h3 => ⟨h1, h2, hset _ (by simp) h3⟩
      | true => exact hu.silent rfl rfl fun _ _ _ h3 => absurd hmem h3
  | exchange r =>
      simp only [stepThread]
      split
      · exact hu.silent rfl rfl fun _ h1 h2 h3 => ⟨h1, h2, herase h3⟩
      · exact hu.silent rfl rfl fun _ h1 h2 h3 => ⟨h1, h2, hset _ (by simp) h3⟩
  | clearCancelStream r =>
      exact hu.silent rfl rfl fun _ h1 h2 h3 => ⟨h1, h2, hset _ (by simp) h3⟩
  | postHandler r =>
      refine hu.neutral ⟨[.published r.status], ?_, rfl⟩ rfl fun _ h1 h2 h3 => ⟨h1, h2, herase h3⟩
      intro e he
      rw [List.mem_singleton] at he
      subst he
      exact published_neutral _

/-- **No step uses the request once `on_close` has been invoked**, if the stream closes quietly. -/
theorem requestInvariant_step {z : Zlib} {u u' : UnaryCall} {e : UnaryCallEvent}
    (hu : RequestInvariant u) (hgood : u.ClosesQuietly e) (h : step z u e = some u') :
    RequestInvariant u' := by
  -- before the submit closure is done, the stream cannot be closed
  have hphase : u.phase ≠ .done → u.sessionClosed = false := by
    intro hne
    cases hc : u.sessionClosed with
    | false => rfl
    | true => exact absurd (hu.quiet hc).1 hne
  have hquiet : u.phase ≠ .done → u.sessionClosed = true → ∀ {P : Prop}, P := by
    intro hne hc
    rw [hphase hne] at hc
    cases hc
  cases step_move h with
  | submitCheck o hp =>
      have hne : u.phase ≠ .done := by rcases hp with hp | hp <;> rw [hp] <;> simp
      simp only [submitCheck]
      split
      · exact hu.silent rfl rfl fun hc => hquiet hne hc
      · cases o <;> exact hu.silent rfl rfl fun hc => hquiet hne hc
  | failPending s hp => exact hu.silent rfl rfl fun hc => hquiet (by rw [hp]; simp) hc
  | submitBuild o hp =>
      have hne : u.phase ≠ .done := by rw [hp]; simp
      cases o <;>
        exact hu.neutral ⟨_, contextReads_neutral u.call.ctx, rfl⟩ rfl fun hc => hquiet hne hc
  | setCancelStream hp => exact hu.silent rfl rfl fun hc => hquiet (by rw [hp]; simp) hc
  | cancelSubmitted hp =>
      have hne : u.phase ≠ .done := by rw [hp]; simp
      have hu' : RequestInvariant { u with cancelled := true, phase := .arming } :=
        hu.silent rfl rfl fun hc => hquiet hne hc
      exact requestInvariant_cancelOnStream hu' (hphase hne)
  | cancelUnset hp => exact hu.silent rfl rfl fun hc => hquiet (by rw [hp]; simp) hc
  | armTimer hp =>
      exact hu.neutral ⟨_, contextReads_neutral u.call.ctx, rfl⟩ rfl fun hc =>
        hquiet (by rw [hp]; simp) hc
  | response head => exact hu.silent rfl rfl fun _ h1 h2 h3 => ⟨h1, h2, h3⟩
  | data chunk => exact hu.silent rfl rfl fun _ h1 h2 h3 => ⟨h1, by simpa [post] using h2, h3⟩
  | trailers hd => exact hu.silent rfl rfl fun _ h1 h2 h3 => ⟨h1, by simpa [post] using h2, h3⟩
  | close errorCode hopen =>
      simp only [isOpen, Bool.and_eq_true, decide_eq_true_eq] at hopen
      refine ⟨?_, fun hc => (by cases hc), fun _ => ⟨hopen.2, by simpa [post, log] using hgood.1,
        hgood.2⟩⟩
      refine neverAfter_append hu.ordered (neverAfter_of_forall_not fun e he => ?_) fun _ e he => ?_
      · rw [List.mem_singleton] at he
        subst he
        exact id
      · rw [List.mem_singleton] at he
        subst he
        exact id
  | task t rest hs =>
      have hrest : .cancel ∉ u.strand → UnaryTask.cancel ∉ rest := fun hn hm =>
        hn (hs ▸ List.mem_cons_of_mem _ hm)
      cases t with
      | data chunk => exact hu.silent rfl rfl fun _ h1 h2 h3 => ⟨h1, hrest h2, h3⟩
      | trailers hd =>
          refine hu.neutral ⟨_, ?_, rfl⟩ rfl fun _ h1 h2 h3 => ⟨h1, hrest h2, h3⟩
          intro e he
          split at he
          · exact contextReads_neutral _ e he
          · cases he
      | close errorCode => exact hu.silent rfl rfl fun _ h1 h2 h3 => ⟨h1, hrest h2, h3⟩
      | cancel =>
          -- the closure is posted only while the stream is open
          have hopen : u.sessionClosed = false := by
            cases hc : u.sessionClosed with
            | false => rfl
            | true => exact absurd (hs ▸ List.mem_cons_self) (hu.quiet hc).2.1
          have hu' : RequestInvariant { u with strand := rest } :=
            hu.silent rfl rfl fun _ h1 h2 h3 => ⟨h1, hrest h2, h3⟩
          exact requestInvariant_cancelOnStream hu' hopen
      | deadline => exact hu.silent rfl rfl fun _ h1 h2 h3 => ⟨h1, hrest h2, h3⟩
  | ioc i r => exact hu.silent rfl rfl fun _ h1 h2 h3 => ⟨h1, h2, by simpa [spawn] using h3⟩
  | expire t => exact hu.silent rfl rfl fun _ h1 h2 h3 => ⟨h1, h2, h3⟩
  | timerHandler t =>
      exact hu.silent rfl rfl fun _ h1 h2 h3 => ⟨h1, by simpa [post] using h2, h3⟩
  | cancel => exact hu.silent rfl rfl fun _ h1 h2 h3 => ⟨h1, h2, by simpa [spawn] using h3⟩
  | cancelOnStrand _ hset =>
      have hu' : RequestInvariant { u with cancelled := true } :=
        hu.silent rfl rfl fun _ h1 h2 h3 => ⟨h1, h2, h3⟩
      have hopen : u.sessionClosed = false := by
        cases hc : u.sessionClosed with
        | false => rfl
        | true =>
            rw [hgood hc] at hset
            cases hset
      have hv := requestInvariant_cancelOnStream hu' hopen
      exact hv.silent rfl rfl fun _ h1 h2 h3 => ⟨h1, h2, by simpa [spawn] using h3⟩
  | cancelOnStrandUnset =>
      exact hu.silent rfl rfl fun _ h1 h2 h3 => ⟨h1, h2, by simpa [spawn] using h3⟩
  | thread i pc hi => exact requestInvariant_stepThread hu hi hgood
  | runHandler i r => exact hu.silent rfl rfl fun _ h1 h2 h3 => ⟨h1, h2, h3⟩
  | goaway lastStreamId => exact requestInvariant_failActive hu _
  | spared lastStreamId => exact hu
  | shutdown => exact requestInvariant_failActive hu _

end UnaryCall

/-- A new streaming call. -/
theorem StreamingCall.requestInvariant_new (c : StreamingCallState) :
    StreamingCall.RequestInvariant (StreamingCall.new c) :=
  ⟨neverAfter_nil, fun _ => List.not_mem_nil, fun h => (by cases h), fun _ => ⟨rfl, rfl⟩⟩

/-- A new unary call. -/
theorem UnaryCall.requestInvariant_new (ctx : Option ClientContext) :
    UnaryCall.RequestInvariant (UnaryCall.new ctx) :=
  ⟨neverAfter_nil, fun _ => List.not_mem_nil, fun h => (by cases h)⟩

/-- **The request is not used after `on_close`**, in every run of a streaming or unary call whose
stream closes quietly. -/
theorem request_untouched_after_close (z : Zlib) (ctx : Option ClientContext) :
    (∀ (kind : CallKind) (es : List CallEvent) (w : StreamingCall),
      StreamingCall.machine.Along StreamingCall.ClosesQuietly
          (StreamingCall.new (kind.callState ctx)) es →
        StreamingCall.machine.run (StreamingCall.new (kind.callState ctx)) es = some w →
          RequestOrder w.trace) ∧
      ∀ (es : List UnaryCallEvent) (u : UnaryCall),
        (UnaryCall.machine z).Along UnaryCall.ClosesQuietly (UnaryCall.new ctx) es →
          (UnaryCall.machine z).run (UnaryCall.new ctx) es = some u → RequestOrder u.trace := by
  constructor
  · intro kind es w hgood hrun
    exact (Machine.run_invariant_along (M := StreamingCall.machine)
      (I := StreamingCall.RequestInvariant)
      (fun _ _ _ hs hg hst => StreamingCall.requestInvariant_step hs hg hst) es _ w
      (StreamingCall.requestInvariant_new _) hgood hrun).ordered
  · intro es u hgood hrun
    exact (Machine.run_invariant_along (M := UnaryCall.machine z)
      (I := UnaryCall.RequestInvariant)
      (fun _ _ _ hs hg hst => UnaryCall.requestInvariant_step hs hg hst) es _ u
      (UnaryCall.requestInvariant_new ctx) hgood hrun).ordered

/-- A bidirectional call that writes, runs the write's closure, and is closed; and a unary call that
is cancelled before its stream closes. -/
theorem request_untouched_example :
    (∃ w, StreamingCall.machine.run (StreamingCall.new (CallKind.bidi.callState none))
        [.submit (.accepted 1), .write [7], .runStrand, .close 0, .runStrand] = some w ∧
      RequestOrder w.trace) ∧
      ∃ u, (UnaryCall.machine Zlib.none).run (UnaryCall.new none)
          [.submitCheck .proceed, .submitBuild (.accepted 1), .setCancelStream, .armTimer, .cancel,
            .thread 0, .thread 0, .thread 0, .runStrand, .close 8, .runStrand] = some u ∧
        RequestOrder u.trace := by
  obtain ⟨hstream, hunary⟩ := request_untouched_after_close Zlib.none none
  refine ⟨?_, ?_⟩
  · obtain ⟨w, hw⟩ := Option.isSome_iff_exists.1 (show (StreamingCall.machine.run
      (StreamingCall.new (CallKind.bidi.callState none))
      [.submit (.accepted 1), .write [7], .runStrand, .close 0, .runStrand]).isSome = true
        by decide)
    exact ⟨w, hw, hstream .bidi _ w (by decide) hw⟩
  · obtain ⟨u, hu⟩ := Option.isSome_iff_exists.1 (show ((UnaryCall.machine Zlib.none).run
      (UnaryCall.new none) [.submitCheck .proceed, .submitBuild (.accepted 1), .setCancelStream,
        .armTimer, .cancel, .thread 0, .thread 0, .thread 0, .runStrand, .close 8,
        .runStrand]).isSome = true by decide)
    exact ⟨u, hu, hunary _ u (by decide) hu⟩

/-- **A write queued ahead of the closure of `on_close` resumes a freed request**, and a unary
cancellation queued there cancels one. -/
theorem not_request_untouched :
    (¬ ∀ (kind : CallKind) (ctx : Option ClientContext) (es : List CallEvent) (w : StreamingCall),
        StreamingCall.machine.run (StreamingCall.new (kind.callState ctx)) es = some w →
          RequestOrder w.trace) ∧
      ¬ ∀ (z : Zlib) (ctx : Option ClientContext) (es : List UnaryCallEvent) (u : UnaryCall),
        (UnaryCall.machine z).run (UnaryCall.new ctx) es = some u → RequestOrder u.trace := by
  constructor
  · intro h
    have hrun : (StreamingCall.machine.run (StreamingCall.new (CallKind.bidi.callState none))
        [.submit (.accepted 1), .write [7], .close 0, .runStrand]).map (·.trace) =
          some [.sessionClosed, .request .resume] := by
      decide
    obtain ⟨w, hw, htrace⟩ := Option.map_eq_some_iff.1 hrun
    have horder := h .bidi none _ w hw
    rw [htrace] at horder
    simp [RequestOrder, NeverAfter, Effect.isClose, Effect.isRequest] at horder
  · intro h
    have hrun : ((UnaryCall.machine Zlib.none).run (UnaryCall.new none)
        [.submitCheck .proceed, .submitBuild (.accepted 1), .setCancelStream, .armTimer, .cancel,
          .thread 0, .thread 0, .thread 0, .close 8, .runStrand]).map (·.trace) =
          some [.sessionClosed, .request .cancel] := by
      decide
    obtain ⟨u, hu, htrace⟩ := Option.map_eq_some_iff.1 hrun
    have horder := h Zlib.none none _ u hu
    rw [htrace] at horder
    simp [RequestOrder, NeverAfter, Effect.isClose, Effect.isRequest] at horder

end Rpcpio.Client
