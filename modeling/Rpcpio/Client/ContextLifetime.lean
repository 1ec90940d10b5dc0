import Rpcpio.Client.StreamingCall
import Rpcpio.Client.UnaryCall

/-!
# The context after the outcome

A call holds a bare pointer to its context, and the caller may destroy the context once it has the
outcome. The submit closures, the timer and the data path read it, and nothing keeps them from doing
so after a deadline or a cancellation. A run is safe if response headers are accepted before a
streaming status is published, and if no unary completion is posted while the submit closure is in
the middle of its run or before compressed trailers are processed.
-/

set_option autoImplicit false

namespace Rpcpio.Client

open Rpcpio.Library Rpcpio.Protocol

/-- A publication of the outcome. -/
def Effect.isPublished : Effect → Bool
  | .published _ => true
  | _ => false

/-- The caller has been given the outcome. -/
def hasOutcome (tr : List Effect) : Bool := tr.any Effect.isPublished

/-- The trace reads no context after a publication. -/
abbrev ContextOrder (tr : List Effect) : Prop :=
  NeverAfter (fun e => e.isPublished = true) (· = Effect.contextRead) tr

theorem hasOutcome_append (tr es : List Effect) :
    hasOutcome (tr ++ es) = (hasOutcome tr || hasOutcome es) := List.any_append

theorem hasOutcome_request (rs : List RequestCall) : hasOutcome (rs.map .request) = false := by
  simp [hasOutcome, Effect.isPublished]

theorem hasOutcome_contextReads (ctx : Option ClientContext) :
    hasOutcome (contextReads ctx) = false := by
  simp only [contextReads]
  split <;> rfl

/-- What a step adds to a trace: nothing that reads the context, or nothing that publishes. -/
inductive StepEffects (readable : Prop) (es : List Effect) : Prop where
  | noRead (h : Effect.contextRead ∉ es)
  | read (h : hasOutcome es = false) (hr : readable)

theorem stepEffects_contextReads {readable : Prop} {ctx : Option ClientContext}
    (h : ctx.isSome = true → readable) : StepEffects readable (contextReads ctx) := by
  simp only [contextReads]
  by_cases hc : ctx.isSome = true
  · rw [if_pos hc]
    exact .read rfl (h hc)
  · rw [if_neg hc]
    exact .noRead List.not_mem_nil

/-- **Reads that only happen before the outcome keep the order.** -/
theorem ContextOrder.append {readable : Prop} {tr es : List Effect} (h : ContextOrder tr)
    (hes : StepEffects readable es) (hread : readable → hasOutcome tr = false) :
    ContextOrder (tr ++ es) := by
  cases hes with
  | noRead hn =>
      have hall : ∀ b ∈ es, ¬ b = Effect.contextRead := fun b hb heq => hn (heq ▸ hb)
      exact neverAfter_append h (neverAfter_of_forall_not hall) fun _ => hall
  | read hp hr =>
      refine neverAfter_append h (neverAfter_of_forall_not_left fun a ha => ?_) ?_
      · exact List.any_eq_false.1 hp a ha
      · rintro ⟨a, ha, hpub⟩
        exact absurd hpub (List.any_eq_false.1 (hread hr) a ha)

namespace StreamingCall

/-- The events that read the context: the submit closure, and an accepted response head. -/
def ReadsContext (w : StreamingCall) : CallEvent → Prop
  | .submit _ => w.call.ctx.isSome = true
  | .response head => headVerdict head = .accepted ∧ w.call.ctx.isSome = true
  | _ => False

/-- The condition under which the context is read in time: response headers that `Attach` accepts
do not arrive after a final status. -/
def ReadsInTime (w : StreamingCall) : CallEvent → Prop
  | .response head =>
      headVerdict head = .accepted → w.call.ctx.isSome = true → hasOutcome w.trace = false
  | _ => True

instance (w : StreamingCall) (e : CallEvent) : Decidable (w.ReadsInTime e) := by
  simp only [ReadsInTime]
  split <;> infer_instance

/-- Nothing has happened to the call: its submit closure has not run. -/
structure Unsubmitted (w : StreamingCall) : Prop where
  trace : w.trace = []
  strand : w.strand = []
  ioc : w.ioc = []
  streamId : w.streamId = none
  active : w.active = false
  dataLimit : w.dataLimit = none
  timer : w.call.timer = .idle
  submitted : w.submitted = false

/-- What a step does to a call's trace, and that it stays submitted. -/
structure ContextStep (w : StreamingCall) (e : CallEvent) (w' : StreamingCall) : Prop where
  effects : ∃ es, w'.trace = w.trace ++ es ∧ StepEffects (w.ReadsContext e) es
  submitted : w.submitted = true → w'.submitted = true

theorem contextStep_silent {w w' : StreamingCall} {e : CallEvent} (ht : w'.trace = w.trace)
    (hs : w'.submitted = w.submitted) : ContextStep w e w' :=
  ⟨⟨[], by simp [ht], .noRead List.not_mem_nil⟩, fun h => hs.trans h⟩

theorem contextStep_noRead {w w' : StreamingCall} {e : CallEvent} (es : List Effect)
    (ht : w'.trace = w.trace ++ es) (hn : Effect.contextRead ∉ es)
    (hs : w'.submitted = w.submitted) : ContextStep w e w' :=
  ⟨⟨es, ht, .noRead hn⟩, fun h => hs.trans h⟩

theorem contextRead_not_mem_request (rs : List RequestCall) :
    Effect.contextRead ∉ rs.map Effect.request := by
  simp

theorem contextStep_onWriter (w : StreamingCall) (e : CallEvent)
    (f : RawClientWriterImpl → RawClientWriterImpl × List RequestCall) :
    ContextStep w e (w.onWriter f) := by
  simp only [onWriter]
  cases w.call.writer with
  | none => exact contextStep_silent rfl rfl
  | some x => exact contextStep_noRead _ rfl (contextRead_not_mem_request _) rfl

theorem contextStep_cancelActive (w : StreamingCall) (e : CallEvent) :
    ContextStep w e w.cancelActive := by
  simp only [cancelActive]
  split
  · exact contextStep_noRead [.request .cancel] rfl (by simp) rfl
  · exact contextStep_silent rfl rfl

theorem contextStep_failActive (w : StreamingCall) (e : CallEvent) (s : Status) :
    ContextStep w e (w.failActive s) := by
  simp only [failActive]
  split <;> exact contextStep_silent rfl rfl

/-- No closure on the strand reads the context. -/
theorem contextStep_runTask (w : StreamingCall) (e : CallEvent) (t : StrandTask) :
    ContextStep w e (w.runTask t) := by
  cases t with
  | data maxMsgSize chunk => exact contextStep_silent rfl rfl
  | trailers h =>
      refine contextStep_noRead _ rfl ?_ rfl
      split <;> simp
  | close errorCode => exact contextStep_silent rfl rfl
  | enqueue frame => exact contextStep_onWriter w e _
  | writesDone => exact contextStep_onWriter w e _
  | cancel => exact contextStep_cancelActive w e
  | deadline => exact contextStep_silent rfl rfl

/-- **What a step does to the trace.** -/
theorem step_context {w w' : StreamingCall} {e : CallEvent} (h : w.step e = some w') :
    ContextStep w e w' := by
  cases step_move h with
  | submit o =>
      have hreads : StepEffects (w.ReadsContext (.submit o)) w.contextReads :=
        stepEffects_contextReads id
      cases o with
      | refused s =>
          exact ⟨⟨[], by simp [submit, after], .noRead List.not_mem_nil⟩, fun _ => rfl⟩
      | invalid s => exact ⟨⟨w.contextReads, rfl, hreads⟩, fun _ => rfl⟩
      | rejected s => exact ⟨⟨w.contextReads, rfl, hreads⟩, fun _ => rfl⟩
      | accepted id => exact ⟨⟨w.contextReads, rfl, hreads⟩, fun _ => rfl⟩
  | response head =>
      -- only a head that is accepted reads the limit from the context
      refine ⟨⟨_, rfl, ?_⟩, id⟩
      unfold StreamingCallState.attach
      cases hv : headVerdict head with
      | rejected s => exact .noRead List.not_mem_nil
      | trailersOnly s => exact .noRead List.not_mem_nil
      | accepted => exact stepEffects_contextReads fun hc => ⟨hv, hc⟩
  | close errorCode => exact contextStep_noRead [.sessionClosed] rfl (by simp) rfl
  | task t rest =>
      have hrun := contextStep_runTask { w with strand := rest } .runStrand t
      exact ⟨hrun.effects, hrun.submitted⟩
  | ioc i t =>
      refine contextStep_noRead _ rfl ?_ rfl
      cases t with
      | failed s => simp [iocEffects]
      | streamClosed errorCode trailersDone => cases trailersDone <;> simp [iocEffects]
      | trailersOnly s =>
          simp only [iocEffects]
          split <;> simp
  | cancel => exact contextStep_cancelActive w _
  | goaway lastStreamId => exact contextStep_failActive w _ _
  | shutdown => exact contextStep_failActive w _ _
  | _ => exact contextStep_silent rfl rfl

/-- Only its submit closure does anything to an unsubmitted call. -/
theorem Unsubmitted.step {w w' : StreamingCall} {e : CallEvent} (hw : Unsubmitted w)
    (h : w.step e = some w') : w'.submitted = true ∨ w' = w := by
  have hopen : w.isOpen = false := by simp [isOpen, hw.streamId]
  cases e with
  | submit o =>
      simp only [StreamingCall.step, Option.ite_none_right_eq_some, Option.some.injEq] at h
      obtain ⟨_, rfl⟩ := h
      cases o <;> exact Or.inl rfl
  | goaway lastStreamId =>
      simp only [StreamingCall.step, hw.streamId, Option.some.injEq] at h
      exact Or.inr h.symm
  | shutdown =>
      simp only [StreamingCall.step, failActive, hw.active, Option.some.injEq] at h
      exact Or.inr h.symm
  | read =>
      simp only [StreamingCall.step, hw.submitted] at h
      split at h <;> simp at h
  | _ =>
      simp [StreamingCall.step, hopen, hw.strand, hw.ioc, hw.streamId, hw.dataLimit, hw.timer,
        hw.submitted, Timer.expire, Timer.fire] at h

structure ContextInvariant (w : StreamingCall) : Prop where
  ordered : ContextOrder w.trace
  fresh : w.submitted = true ∨ Unsubmitted w

/-- **The context is read only before the final status**, if response headers arrive in time. -/
theorem contextInvariant_step {w w' : StreamingCall} {e : CallEvent} (hw : ContextInvariant w)
    (hgood : w.ReadsInTime e) (h : w.step e = some w') : ContextInvariant w' := by
  have hctx := step_context h
  refine ⟨?_, ?_⟩
  · obtain ⟨es, ht, hes⟩ := hctx.effects
    rw [ht]
    apply hw.ordered.append hes
    intro hread
    cases e with
    | submit o =>
        simp only [step, Option.ite_none_right_eq_some, Bool.and_eq_true, Bool.not_eq_true'] at h
        rcases hw.fresh with hs | hs
        · rw [hs] at h
          exact absurd h.1.1 (by simp)
        · rw [hs.trace]
          rfl
    | response head => exact hgood hread.1 hread.2
    | _ => exact absurd hread id
  · rcases hw.fresh with hs | hs
    · exact Or.inl (hctx.submitted hs)
    · rcases hs.step h with hs' | rfl
      · exact Or.inl hs'
      · exact Or.inr hs

theorem contextInvariant_new (kind : CallKind) (ctx : Option ClientContext) :
    ContextInvariant (new (kind.callState ctx)) :=
  ⟨neverAfter_nil, Or.inr ⟨rfl, rfl, rfl, rfl, rfl, rfl, by cases kind <;> rfl, rfl⟩⟩

end StreamingCall

/-- The thread is about to post the completion handler. -/
def Pc.isPosting : Pc → Bool
  | .postHandler _ => true
  | _ => false

namespace UnaryCall

/-- Whether the closure at the head of the strand reads the context. -/
def decompressesNext (u : UnaryCall) : Bool :=
  match u.strand with
  | .trailers h :: _ => u.call.needsDecompression h
  | _ => false

/-- The events that read the context: the submit closure, and trailers of a compressed message. -/
def ReadsContext (u : UnaryCall) : UnaryCallEvent → Prop
  | .submitBuild _ => u.call.ctx.isSome = true
  | .armTimer => u.call.ctx.isSome = true
  | .runStrand => u.decompressesNext = true ∧ u.call.ctx.isSome = true
  | _ => False

/-- The condition under which the context is read in time: no thread posts the completion while the
submit closure is in the middle of its run, and none has posted it when trailers of a compressed
message are processed. -/
def ReadsInTime (u : UnaryCall) : UnaryCallEvent → Prop
  | .thread i =>
      (u.threads[i]?.any Pc.isPosting) = true → u.call.ctx.isSome = true → u.strandFree = true
  | .runStrand =>
      u.decompressesNext = true → u.call.ctx.isSome = true → hasOutcome u.trace = false
  | _ => True

instance (u : UnaryCall) (e : UnaryCallEvent) : Decidable (u.ReadsInTime e) :=
  match e with
  | .thread _ => inferInstanceAs (Decidable (_ → _ → _))
  | .runStrand => inferInstanceAs (Decidable (_ → _ → _))
  | .submitCheck _ | .failPending _ | .submitBuild _ | .setCancelStream | .cancelSubmitted
  | .armTimer | .response _ | .data _ | .trailers _ | .close _ | .runIoc _ | .expire
  | .timerHandler | .cancel | .cancelOnStrand | .runHandler _ | .goaway _ | .shutdown =>
      isTrue trivial

/-- What a step does to a call's trace. -/
def ContextStep (u : UnaryCall) (e : UnaryCallEvent) (u' : UnaryCall) : Prop :=
  ∃ es, u'.trace = u.trace ++ es ∧ StepEffects (u.ReadsContext e) es ∧
    (hasOutcome es = true → ∃ i, e = .thread i ∧ (u.threads[i]?.any Pc.isPosting) = true)

theorem contextStep_silent {u u' : UnaryCall} {e : UnaryCallEvent} (ht : u'.trace = u.trace) :
    ContextStep u e u' :=
  ⟨[], by simp [ht], .noRead List.not_mem_nil, fun h => by cases h⟩

theorem contextStep_contextReads {u u' : UnaryCall} {e : UnaryCallEvent}
    (ht : u'.trace = u.trace ++ contextReads u.call.ctx)
    (hread : u.call.ctx.isSome = true → u.ReadsContext e) : ContextStep u e u' :=
  ⟨_, ht, stepEffects_contextReads hread, fun h => by simp [hasOutcome_contextReads] at h⟩

theorem contextStep_request {u u' : UnaryCall} {e : UnaryCallEvent} (rs : List RequestCall)
    (ht : u'.trace = u.trace ++ rs.map .request) : ContextStep u e u' :=
  ⟨_, ht, .noRead (by simp), fun h => by simp [hasOutcome_request] at h⟩

theorem contextStep_failActive (u : UnaryCall) (e : UnaryCallEvent) (s : Status) :
    ContextStep u e (u.failActive s) := by
  simp only [failActive]
  split <;> exact contextStep_silent rfl

/-- An access of a thread publishes only when it posts the handler. -/
theorem contextStep_stepThread {u : UnaryCall} {i : Nat} {pc : Pc} (hi : u.threads[i]? = some pc) :
    ContextStep u (.thread i) (u.stepThread i pc) := by
  cases pc with
  | storeCancelled => exact contextStep_silent rfl
  | copyCancelStream => exact contextStep_silent rfl
  | invokeCancelStream copied => cases copied <;> exact contextStep_silent rfl
  | exchange r =>
      simp only [stepThread]
      split <;> exact contextStep_silent rfl
  | clearCancelStream r => exact contextStep_silent rfl
  | postHandler r =>
      exact ⟨[.published r.status], rfl, .noRead (by simp),
        fun _ => ⟨i, rfl, by rw [hi]; rfl⟩⟩

/-- **What a step does to the trace.** -/
theorem step_context {z : Zlib} {u u' : UnaryCall} {e : UnaryCallEvent}
    (h : step z u e = some u') : ContextStep u e u' := by
  cases step_move h with
  | submitCheck o =>
      simp only [submitCheck]
      split
      · exact contextStep_silent rfl
      · cases o <;> exact contextStep_silent rfl
  | failPending s => exact contextStep_silent rfl
  | submitBuild o => cases o <;> exact contextStep_contextReads rfl id
  | setCancelStream => exact contextStep_silent rfl
  | cancelSubmitted => exact contextStep_request [.cancel] rfl
  | cancelUnset => exact contextStep_silent rfl
  | armTimer => exact contextStep_contextReads rfl id
  | response head => exact contextStep_silent rfl
  | data chunk => exact contextStep_silent rfl
  | trailers hd => exact contextStep_silent rfl
  | close errorCode => exact ⟨[.sessionClosed], rfl, .noRead (by simp), fun h => by cases h⟩
  | task t rest hs =>
      cases t with
      | data chunk => exact contextStep_silent rfl
      | trailers hd =>
          by_cases hd' : u.call.needsDecompression hd = true
          · refine contextStep_contextReads ?_ fun hc => ⟨?_, hc⟩
            · simp [runTask, after, log, hd']
            · simp [decompressesNext, hs, hd']
          · apply contextStep_silent
            simp [runTask, after, log, hd']
      | close errorCode => exact contextStep_silent rfl
      | cancel => exact contextStep_request [.cancel] rfl
      | deadline => exact contextStep_silent rfl
  | ioc i r => exact contextStep_silent rfl
  | expire t => exact contextStep_silent rfl
  | timerHandler t => exact contextStep_silent rfl
  | cancel => exact contextStep_silent rfl
  | cancelOnStrand => exact contextStep_request [.cancel] rfl
  | cancelOnStrandUnset => exact contextStep_silent rfl
  | thread i pc hi => exact contextStep_stepThread hi
  | runHandler i r => exact contextStep_silent rfl
  | goaway lastStreamId => exact contextStep_failActive u _ _
  | spared lastStreamId => exact contextStep_silent rfl
  | shutdown => exact contextStep_failActive u _ _

/-- The submit closure has not found the channel ready yet. -/
def isPending (u : UnaryCall) : Prop := u.phase = .waiting ∨ u.phase = .queued

/-- A pending call: no stream and nothing posted; and until it is cancelled its threads have not
passed the first access of `UnaryCallControl::Cancel`. -/
structure Pending (u : UnaryCall) : Prop where
  strand : u.strand = []
  ioc : u.ioc = []
  timer : u.call.timer = .idle
  cancelStream : u.cancelStream = false
  streamId : u.streamId = none
  active : u.active = false
  uncopied : .invokeCancelStream true ∉ u.threads
  untouched : u.cancelled = false →
    (∀ pc ∈ u.threads, pc = .storeCancelled) ∧ hasOutcome u.trace = false

/-- An access of a thread leaves a pending call pending. -/
theorem Pending.stepThread {u : UnaryCall} {i : Nat} {pc : Pc} (hu : Pending u)
    (hi : u.threads[i]? = some pc) : Pending (u.stepThread i pc) := by
  have hmem : pc ∈ u.threads := List.mem_of_getElem? hi
  have hset : ∀ x : Pc, x ≠ .invokeCancelStream true →
      .invokeCancelStream true ∉ u.threads.set i x := by
    intro x hx hm
    rcases List.mem_or_eq_of_mem_set hm with hm | hm
    · exact hu.uncopied hm
    · exact hx hm.symm
  have herase : .invokeCancelStream true ∉ u.threads.eraseIdx i :=
    fun hm => hu.uncopied (List.mem_of_mem_eraseIdx hm)
  -- a thread beyond its first access has stored `cancelled_`
  have hcancelled : ∀ {P : Prop}, pc ≠ .storeCancelled → u.cancelled = false → P := by
    intro P hne hc
    exact absurd ((hu.untouched hc).1 pc hmem) hne
  cases pc with
  | storeCancelled =>
      exact ⟨hu.strand, hu.ioc, hu.timer, hu.cancelStream, hu.streamId, hu.active,
        hset _ (by simp), fun h => by cases h⟩
  | copyCancelStream =>
      exact ⟨hu.strand, hu.ioc, hu.timer, hu.cancelStream, hu.streamId, hu.active,
        hset _ (by simp [hu.cancelStream]), hcancelled (by simp)⟩
  | invokeCancelStream copied =>
      cases copied with
      | true => exact absurd hmem hu.uncopied
      | false =>
          exact ⟨hu.strand, hu.ioc, hu.timer, hu.cancelStream, hu.streamId, hu.active,
            hset _ (by simp), hcancelled (by simp)⟩
  | exchange r =>
      simp only [UnaryCall.stepThread]
      split
      · exact ⟨hu.strand, hu.ioc, hu.timer, hu.cancelStream, hu.streamId, hu.active, herase,
          hcancelled (by simp)⟩
      · exact ⟨hu.strand, hu.ioc, hu.timer, hu.cancelStream, hu.streamId, hu.active,
          hset _ (by simp), hcancelled (by simp)⟩
  | clearCancelStream r =>
      exact ⟨hu.strand, hu.ioc, hu.timer, rfl, hu.streamId, hu.active, hset _ (by simp),
        hcancelled (by simp)⟩
  | postHandler r =>
      exact ⟨hu.strand, hu.ioc, hu.timer, hu.cancelStream, hu.streamId, hu.active, herase,
        hcancelled (by simp)⟩

/-- A thread does not touch the call state or the submit closure. -/
theorem stepThread_frame (u : UnaryCall) (i : Nat) (pc : Pc) :
    (u.stepThread i pc).phase = u.phase ∧ (u.stepThread i pc).call = u.call := by
  cases pc with
  | invokeCancelStream copied => cases copied <;> exact ⟨rfl, rfl⟩
  | exchange r =>
      simp only [UnaryCall.stepThread]
      split <;> exact ⟨rfl, rfl⟩
  | _ => exact ⟨rfl, rfl⟩

/-- What a step makes of a pending call: it stays pending, begins to be submitted while the caller
has no outcome, or is done. -/
theorem Pending.step {z : Zlib} {u u' : UnaryCall} {e : UnaryCallEvent} (hp : u.isPending)
    (hu : Pending u) (h : step z u e = some u') :
    (u'.isPending ∧ Pending u') ∨ (u'.phase = .building ∧ hasOutcome u'.trace = false) ∨
      u'.phase = .done := by
  -- there is no stream, and the submit closure has not begun
  have hopen : u.isOpen = true → ∀ {P : Prop}, P := fun h => by simp [isOpen, hu.streamId] at h
  have hphase : ∀ {p}, u.phase = p → p ≠ .waiting → p ≠ .queued → ∀ {P : Prop}, P := by
    rintro p rfl h1 h2
    exact absurd hp (by simp [isPending, h1, h2])
  cases step_move h with
  | submitCheck o =>
      simp only [submitCheck]
      by_cases hc : u.cancelled = true
      · rw [if_pos hc]
        exact Or.inr (Or.inr rfl)
      · rw [if_neg hc]
        have hout := (hu.untouched (by simpa using hc)).2
        cases o with
        | refused s => exact Or.inr (Or.inr rfl)
        | queued =>
            exact Or.inl ⟨Or.inr rfl, hu.strand, hu.ioc, hu.timer, hu.cancelStream, hu.streamId,
              hu.active, hu.uncopied, hu.untouched⟩
        | proceed => exact Or.inr (Or.inl ⟨rfl, hout⟩)
  | failPending s => exact Or.inr (Or.inr rfl)
  | submitBuild o hb => exact hphase hb (by simp) (by simp)
  | setCancelStream hb => exact hphase hb (by simp) (by simp)
  | cancelSubmitted hb => exact hphase hb (by simp) (by simp)
  | cancelUnset hb => exact hphase hb (by simp) (by simp)
  | armTimer hb => exact hphase hb (by simp) (by simp)
  | response head ho => exact hopen ho
  | data chunk ho => exact hopen ho
  | trailers hd ho => exact hopen ho
  | close errorCode ho => exact hopen ho
  | task t rest hs => simp [hu.strand] at hs
  | ioc i r hi => simp [hu.ioc] at hi
  | expire t ht => simp [hu.timer, Timer.expire] at ht
  | timerHandler t ht => simp [hu.timer, Timer.fire] at ht
  | cancel =>
      refine Or.inl ⟨hp, hu.strand, hu.ioc, hu.timer, hu.cancelStream, hu.streamId, hu.active, ?_,
        fun hc => ⟨?_, (hu.untouched hc).2⟩⟩
      · simpa [spawn] using hu.uncopied
      · intro pc hm
        rcases List.mem_append.1 hm with hm | hm
        · exact (hu.untouched hc).1 pc hm
        · exact List.mem_singleton.1 hm
  | cancelOnStrand _ hset =>
      rw [hu.cancelStream] at hset
      cases hset
  | cancelOnStrandUnset =>
      exact Or.inl ⟨hp, hu.strand, hu.ioc, hu.timer, hu.cancelStream, hu.streamId, hu.active,
        by simpa [spawn] using hu.uncopied, fun hc => by cases hc⟩
  | thread i pc hi =>
      refine Or.inl ⟨?_, hu.stepThread hi⟩
      rwa [isPending, (stepThread_frame u i pc).1]
  | runHandler i r =>
      exact Or.inl ⟨hp, hu.strand, hu.ioc, hu.timer, hu.cancelStream, hu.streamId, hu.active,
        hu.uncopied, hu.untouched⟩
  | goaway lastStreamId _ hlater => simp [hu.streamId] at hlater
  | spared lastStreamId => exact Or.inl ⟨hp, hu⟩
  | shutdown =>
      have hidle : ¬ u.active = true := by simp [hu.active]
      rw [failActive, if_neg hidle]
      exact Or.inl ⟨hp, hu⟩

/-- The submit closure, once it is done, does not run again. -/
theorem step_done {z : Zlib} {u u' : UnaryCall} {e : UnaryCallEvent} (hdone : u.phase = .done)
    (h : step z u e = some u') : u'.phase = .done := by
  have hfail : ∀ s, (u.failActive s).phase = .done := by
    intro s
    simp only [failActive]
    split <;> exact hdone
  have hbegun : ∀ {p}, u.phase = p → p ≠ .done → ∀ {P : Prop}, P := by
    rintro p rfl hne
    exact absurd hdone hne
  cases step_move h with
  | submitCheck o hp => simp [hdone] at hp
  | failPending s hp => exact hbegun hp (by simp)
  | submitBuild o hp => exact hbegun hp (by simp)
  | setCancelStream hp => exact hbegun hp (by simp)
  | cancelSubmitted hp => exact hbegun hp (by simp)
  | cancelUnset hp => exact hbegun hp (by simp)
  | armTimer hp => exact hbegun hp (by simp)
  | task t rest hs => cases t <;> exact hdone
  | thread i pc => rw [(stepThread_frame u i pc).1, hdone]
  | goaway lastStreamId => exact hfail _
  | shutdown => exact hfail _
  | _ => exact hdone

/-- `Complete` does not touch the context. -/
theorem ctx_complete (c : ClientCallState) (r : UnaryResultRaw) : (c.complete r).1.ctx = c.ctx := by
  simp only [ClientCallState.complete]
  split <;> rfl

/-- While the submit closure runs, nothing changes the context, and the call is not queued. -/
theorem step_submitting {z : Zlib} {u u' : UnaryCall} {e : UnaryCallEvent}
    (hrun : u.strandFree = false) (h : step z u e = some u') :
    u'.call.ctx = u.call.ctx ∧ ¬ u'.isPending := by
  have hp : u.phase ≠ .waiting ∧ u.phase ≠ .queued ∧ u.phase ≠ .done := by
    simpa [strandFree] using hrun
  have hpend : ¬ u.isPending := fun hq => hq.elim hp.1 hp.2.1
  -- no callback of the stream, and no other closure of the strand
  have hopen : u.isOpen = true → ∀ {P : Prop}, P := fun h => by simp [isOpen, hp.2.2] at h
  have hfree : u.strandFree = true → ∀ {P : Prop}, P := fun h => by simp [hrun] at h
  cases step_move h with
  | submitCheck o hq => exact absurd hq (not_or.2 ⟨hp.1, hp.2.1⟩)
  | failPending s hq => exact absurd hq hp.2.1
  | submitBuild o =>
      cases o with
      | invalid s => exact ⟨rfl, by simp [isPending, submitBuild, spawn]⟩
      | rejected s => exact ⟨ctx_complete _ _, by simp [isPending, submitBuild, after]⟩
      | accepted id => exact ⟨rfl, by simp [isPending, submitBuild]⟩
  | setCancelStream =>
      refine ⟨rfl, ?_⟩
      by_cases hc : u.cancelled = true <;> simp [isPending, hc]
  | cancelSubmitted =>
      exact ⟨ctx_complete _ _, by simp [isPending, cancelOnStream, after, log]⟩
  | cancelUnset => exact ⟨rfl, by simp [isPending]⟩
  | armTimer => exact ⟨rfl, by simp [isPending, log]⟩
  | response head ho => exact hopen ho
  | data chunk ho => exact hopen ho
  | trailers hd ho => exact hopen ho
  | close errorCode ho => exact hopen ho
  | task t rest _ hf => exact hfree hf
  | thread i pc =>
      rw [isPending, (stepThread_frame u i pc).1, (stepThread_frame u i pc).2]
      exact ⟨rfl, hpend⟩
  | cancelOnStrand hf => exact hfree hf
  | cancelOnStrandUnset hf => exact hfree hf
  | goaway lastStreamId hf => exact hfree hf
  | spared lastStreamId hf => exact hfree hf
  | shutdown hf => exact hfree hf
  | _ => exact ⟨rfl, hpend⟩

/-- A submit closure that is neither queued nor running is done. -/
theorem phase_done {u : UnaryCall} (hp : ¬ u.isPending) (hf : u.strandFree = true) :
    u.phase = .done := by
  have hfree : u.phase = .waiting ∨ u.phase = .queued ∨ u.phase = .done := by
    simpa [strandFree] using hf
  rcases hfree with h | h | h
  · exact absurd (Or.inl h) hp
  · exact absurd (Or.inr h) hp
  · exact h

structure ContextInvariant (u : UnaryCall) : Prop where
  ordered : ContextOrder u.trace
  pending : u.isPending → Pending u
  submitting : u.strandFree = false → u.call.ctx.isSome = true → hasOutcome u.trace = false

/-- **The context is read only before the completion is posted**, if it is read in time. -/
theorem contextInvariant_step {z : Zlib} {u u' : UnaryCall} {e : UnaryCallEvent}
    (hu : ContextInvariant u) (hgood : u.ReadsInTime e) (h : step z u e = some u') :
    ContextInvariant u' := by
  obtain ⟨es, ht, hes, hout⟩ := step_context h
  refine ⟨?_, ?_, ?_⟩
  · rw [ht]
    apply hu.ordered.append hes
    intro hread
    cases e with
    | submitBuild o =>
        simp only [step, Option.ite_none_right_eq_some] at h
        exact hu.submitting (by simp [strandFree, h.1]) hread
    | armTimer =>
        simp only [step, Option.ite_none_right_eq_some] at h
        exact hu.submitting (by simp [strandFree, h.1]) hread
    | runStrand => exact hgood hread.1 hread.2
    | _ => exact absurd hread id
  · intro hp'
    by_cases hp : u.isPending
    · rcases (hu.pending hp).step hp h with hs | hs | hs
      · exact hs.2
      · exact absurd hp' (by simp [isPending, hs.1])
      · exact absurd hp' (by simp [isPending, hs])
    · cases hf : u.strandFree with
      | false => exact absurd hp' (step_submitting hf h).2
      | true => exact absurd hp' (by simp [isPending, step_done (phase_done hp hf) h])
  · intro hf' hctx
    by_cases hp : u.isPending
    · rcases (hu.pending hp).step hp h with hs | hs | hs
      · rcases hs.1 with hs | hs <;> simp [strandFree, hs] at hf'
      · exact hs.2
      · simp [strandFree, hs] at hf'
    · cases hf : u.strandFree with
      | true => simp [strandFree, step_done (phase_done hp hf) h] at hf'
      | false =>
          rw [(step_submitting hf h).1] at hctx
          rw [ht, hasOutcome_append, hu.submitting hf hctx, Bool.false_or]
          -- a thread that publishes now would break the condition
          cases ho : hasOutcome es with
          | false => rfl
          | true =>
              obtain ⟨i, rfl, hi⟩ := hout ho
              exact absurd (hgood hi hctx) (by simp [hf])

end UnaryCall

/-- A new unary call. -/
theorem UnaryCall.contextInvariant_new (ctx : Option ClientContext) :
    UnaryCall.ContextInvariant (UnaryCall.new ctx) :=
  ⟨neverAfter_nil,
    fun _ => ⟨rfl, rfl, rfl, rfl, rfl, rfl, List.not_mem_nil,
      fun _ => ⟨by simp [UnaryCall.new], rfl⟩⟩,
    fun h => by cases h⟩

/-- **The context is not read after the outcome**, in every run of a streaming or unary call that
reads it in time. -/
theorem context_unread_after_outcome (z : Zlib) (ctx : Option ClientContext) :
    (∀ (kind : CallKind) (es : List CallEvent) (w : StreamingCall),
      StreamingCall.machine.Along StreamingCall.ReadsInTime
          (StreamingCall.new (kind.callState ctx)) es →
        StreamingCall.machine.run (StreamingCall.new (kind.callState ctx)) es = some w →
          ContextOrder w.trace) ∧
      ∀ (es : List UnaryCallEvent) (u : UnaryCall),
        (UnaryCall.machine z).Along UnaryCall.ReadsInTime (UnaryCall.new ctx) es →
          (UnaryCall.machine z).run (UnaryCall.new ctx) es = some u → ContextOrder u.trace := by
  constructor
  · intro kind es w hgood hrun
    exact (Machine.run_invariant_along (M := StreamingCall.machine)
      (I := StreamingCall.ContextInvariant)
      (fun _ _ _ hs hg hst => StreamingCall.contextInvariant_step hs hg hst) es _ w
      (StreamingCall.contextInvariant_new kind ctx) hgood hrun).ordered
  · intro es u hgood hrun
    exact (Machine.run_invariant_along (M := UnaryCall.machine z)
      (I := UnaryCall.ContextInvariant)
      (fun _ _ _ hs hg hst => UnaryCall.contextInvariant_step hs hg hst) es _ u
      (UnaryCall.contextInvariant_new ctx) hgood hrun).ordered

/-- A bidirectional call whose deadline expires after the response headers, and a unary call that is
cancelled after them. -/
theorem context_unread_example :
    (∃ w, StreamingCall.machine.run
        (StreamingCall.new (CallKind.bidi.callState (some deadlineContext)))
        [.submit (.accepted 1), .response grpcHead, .expire, .timerHandler, .runStrand,
          .runIoc 0] = some w ∧ ContextOrder w.trace) ∧
      ∃ u, (UnaryCall.machine Zlib.none).run (UnaryCall.new (some deadlineContext))
          [.submitCheck .proceed, .submitBuild (.accepted 1), .setCancelStream, .armTimer,
            .response grpcHead, .cancel, .thread 0, .thread 0, .thread 0, .thread 0, .thread 0,
            .thread 0, .runHandler 0] = some u ∧ ContextOrder u.trace := by
  obtain ⟨hstream, hunary⟩ := context_unread_after_outcome Zlib.none (some deadlineContext)
  refine ⟨?_, ?_⟩
  · obtain ⟨w, hw⟩ := Option.isSome_iff_exists.1 (show (StreamingCall.machine.run
      (StreamingCall.new (CallKind.bidi.callState (some deadlineContext)))
      [.submit (.accepted 1), .response grpcHead, .expire, .timerHandler, .runStrand,
        .runIoc 0]).isSome = true by decide)
    exact ⟨w, hw, hstream .bidi _ w (by decide) hw⟩
  · obtain ⟨u, hu⟩ := Option.isSome_iff_exists.1 (show ((UnaryCall.machine Zlib.none).run
      (UnaryCall.new (some deadlineContext)) [.submitCheck .proceed, .submitBuild (.accepted 1),
        .setCancelStream, .armTimer, .response grpcHead, .cancel, .thread 0, .thread 0, .thread 0,
        .thread 0, .thread 0, .thread 0, .runHandler 0]).isSome = true by decide)
    exact ⟨u, hu, hunary _ u (by decide) hu⟩

/-- **Response headers that arrive after the deadline read the context**; and so does the submit
closure of a unary call that is cancelled from another thread while it runs. -/
theorem not_context_unread :
    (¬ ∀ (kind : CallKind) (ctx : Option ClientContext) (es : List CallEvent) (w : StreamingCall),
        StreamingCall.machine.run (StreamingCall.new (kind.callState ctx)) es = some w →
          ContextOrder w.trace) ∧
      ¬ ∀ (z : Zlib) (ctx : Option ClientContext) (es : List UnaryCallEvent) (u : UnaryCall),
        (UnaryCall.machine z).run (UnaryCall.new ctx) es = some u → ContextOrder u.trace := by
  constructor
  · intro h
    have hrun : (StreamingCall.machine.run
        (StreamingCall.new (CallKind.serverStreaming.callState (some deadlineContext)))
        [.submit (.accepted 1), .expire, .timerHandler, .runStrand, .runIoc 0,
          .response grpcHead]).map (·.trace) =
          some [.contextRead, .published deadlineExceeded, .contextRead] := by
      decide
    obtain ⟨w, hw, htrace⟩ := Option.map_eq_some_iff.1 hrun
    have horder := h _ _ _ w hw
    rw [htrace] at horder
    simp [ContextOrder, NeverAfter, Effect.isPublished] at horder
  · intro h
    have hrun : ((UnaryCall.machine Zlib.none).run (UnaryCall.new (some deadlineContext))
        [.submitCheck .proceed, .cancel, .thread 0, .thread 0, .thread 0, .thread 0, .thread 0,
          .thread 0, .submitBuild (.accepted 1)]).map (·.trace) =
          some [.published callCancelled, .contextRead] := by
      decide
    obtain ⟨u, hu, htrace⟩ := Option.map_eq_some_iff.1 hrun
    have horder := h _ _ _ u hu
    rw [htrace] at horder
    simp [ContextOrder, NeverAfter, Effect.isPublished] at horder

end Rpcpio.Client
