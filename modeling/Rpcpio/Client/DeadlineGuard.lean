import Rpcpio.Client.CallProgress

/-!
# The deadline of a queued call

`ArmTimer` is called at the end of the submit closure, on a call state that the closure has just
made. A call that waits for its closure, or that the closure moved to `pending_calls_` or
`pending_generic_calls_` while the connection is being established, has no timer. From its
submission on the deadline of a call is watched until the call ends (`deadline_armed_iff`).
-/

set_option autoImplicit false

namespace Rpcpio.Client

open Rpcpio.Library Rpcpio.Protocol

theorem armTimer_armed {ctx : ClientContext} {t : Timer} (hd : ctx.hasDeadline = true) :
    armTimer (some ctx) t = .armed := by
  simp only [armTimer, if_pos hd, Timer.arm]

namespace StreamingCall

/-- The timer runs or has expired, or the closure that its handler posted is queued. -/
def DeadlineArmed (w : StreamingCall) : Prop :=
  w.call.timer ≠ .idle ∨ StrandTask.deadline ∈ w.strand

instance (w : StreamingCall) : Decidable w.DeadlineArmed := inferInstanceAs (Decidable (_ ∨ _))

/-- What holds of a call with a deadline: it is untouched, or it is watched. -/
inductive Guarded (c : StreamingCallState) (w : StreamingCall) : Prop where
  | untouched (h : w = new c)
  | submitted (hs : w.submitted = true) (hw : w.Watched)

theorem unsubmitted_new (kind : CallKind) (ctx : Option ClientContext) :
    Unsubmitted (new (kind.callState ctx)) :=
  ⟨rfl, rfl, rfl, rfl, rfl, rfl, by cases kind <;> rfl, rfl⟩

/-- The submit closure of a call with a deadline ends the call or arms its timer. -/
theorem submit_watched {kind : CallKind} {ctx : ClientContext} {o : SubmitOutcome}
    (hd : ctx.hasDeadline = true) :
    ((new (kind.callState (some ctx))).submit o).submitted = true ∧
      ((new (kind.callState (some ctx))).submit o).Watched := by
  cases o with
  | refused s => exact ⟨rfl, Or.inl (StreamingCallState.fail_closed _ _)⟩
  | invalid s => exact ⟨rfl, Or.inl (StreamingCallState.fail_closed _ _)⟩
  | rejected s => exact ⟨rfl, Or.inl (StreamingCallState.fail_closed _ _)⟩
  | accepted id =>
      refine ⟨rfl, Or.inr (Or.inl ?_)⟩
      have harmed : ((new (kind.callState (some ctx))).submit (.accepted id)).call.timer =
          .armed := by
        cases kind <;> exact armTimer_armed hd
      rw [harmed]
      simp

theorem guarded_step {kind : CallKind} {ctx : ClientContext} {w w' : StreamingCall} {e : CallEvent}
    (hd : ctx.hasDeadline = true) (hw : Guarded (kind.callState (some ctx)) w)
    (h : w.step e = some w') : Guarded (kind.callState (some ctx)) w' := by
  cases hw with
  | untouched hnew =>
      subst hnew
      rcases (unsubmitted_new kind (some ctx)).step h with hs | hsame
      · -- only the submit closure submits an untouched call
        cases e with
        | submit o =>
            simp only [step, Option.ite_none_right_eq_some, Option.some.injEq] at h
            obtain ⟨_, rfl⟩ := h
            obtain ⟨hsub, hwatch⟩ := submit_watched hd
            exact .submitted hsub hwatch
        | goaway lastStreamId =>
            cases h
            cases hs
        | shutdown =>
            cases h
            cases hs
        | read =>
            simp only [step] at h
            split at h <;> simp [new] at h
        | _ =>
            have htimer : (kind.callState (some ctx)).timer = .idle :=
              (unsubmitted_new kind (some ctx)).timer
            simp [step, isOpen, new, Timer.expire, Timer.fire, htimer] at h
      · exact .untouched hsame
  | submitted hs hwatch =>
      have hsub := (step_context h).submitted hs
      have hne : ∀ id, e ≠ .submit (.accepted id) := by
        rintro id rfl
        simp [step, hs] at h
      exact .submitted hsub ((progress_step h hne).watched hwatch)

/-- **The deadline of a streaming call is watched from its submission on.** -/
theorem armed_iff_submitted {kind : CallKind} {ctx : ClientContext} {es : List CallEvent}
    {w : StreamingCall} (hd : ctx.hasDeadline = true)
    (hrun : machine.run (new (kind.callState (some ctx))) es = some w)
    (hopen : w.call.closed = false) : w.DeadlineArmed ↔ w.submitted = true := by
  have hguard := Machine.run_invariant (M := machine)
    (I := Guarded (kind.callState (some ctx))) (fun _ _ _ hw h => guarded_step hd hw h)
    es _ w (.untouched rfl) hrun
  cases hguard with
  | untouched hnew =>
      subst hnew
      have htimer := (unsubmitted_new kind (some ctx)).timer
      constructor
      · rintro (h | h)
        · exact absurd htimer h
        · cases h
      · intro h
        cases h
  | submitted hs hwatch =>
      rcases hwatch with hc | harmed
      · rw [hopen] at hc
        cases hc
      · exact ⟨fun _ => hs, fun _ => harmed⟩

end StreamingCall

namespace UnaryCall

/-- The timer runs or has expired, or the closure that its handler posted is queued. -/
def DeadlineArmed (u : UnaryCall) : Prop :=
  u.call.timer ≠ .idle ∨ UnaryTask.deadline ∈ u.strand

instance (u : UnaryCall) : Decidable u.DeadlineArmed := inferInstanceAs (Decidable (_ ∨ _))

/-- What holds of a call with a deadline: it is unarmed until the submit closure is done, and
watched from then on. -/
structure Guarded (ctx : ClientContext) (u : UnaryCall) : Prop where
  ctx : u.call.ctx = some ctx
  before : u.phase ≠ .done → u.Unarmed
  after : u.phase = .done → u.Watched

theorem guarded_new (ctx : ClientContext) : Guarded ctx (new (some ctx)) :=
  ⟨rfl, fun _ => ⟨rfl, List.not_mem_nil⟩, fun h => by cases h⟩

theorem guarded_step {z : Zlib} {ctx : ClientContext} {u u' : UnaryCall} {e : UnaryCallEvent}
    (hd : ctx.hasDeadline = true) (hu : Guarded ctx u) (h : step z u e = some u') :
    Guarded ctx u' := by
  by_cases he : e = .armTimer
  · subst he
    simp only [step, Option.ite_none_right_eq_some, Option.some.injEq] at h
    obtain ⟨_, rfl⟩ := h
    refine ⟨hu.ctx, fun hne => absurd rfl hne, fun _ => Or.inr (Or.inl ?_)⟩
    have harmed : u.call.armTimer.timer = .armed := by
      simp only [ClientCallState.armTimer, hu.ctx]
      exact armTimer_armed hd
    simp [log, harmed]
  · have hp := progress_step h he
    refine ⟨hp.ctx.trans hu.ctx, fun hne => hp.unarmed (hu.before fun hdone => ?_), fun hdone => ?_⟩
    · exact hne (step_done hdone h)
    · rcases hp.ended hdone with hdone | hf
      · exact hp.watched (hu.after hdone)
      · exact Or.inl hf

/-- **The deadline of a unary call is watched from the end of its submit closure on.** -/
theorem armed_iff_submitted {z : Zlib} {ctx : ClientContext} {es : List UnaryCallEvent}
    {u : UnaryCall} (hd : ctx.hasDeadline = true)
    (hrun : (machine z).run (new (some ctx)) es = some u) (hopen : ¬ u.Failing) :
    u.DeadlineArmed ↔ u.phase = .done := by
  have hguard := Machine.run_invariant (M := machine z) (I := Guarded ctx)
    (fun _ _ _ hu h => guarded_step hd hu h) es _ u (guarded_new ctx) hrun
  constructor
  · intro harmed
    by_contra hne
    obtain ⟨htimer, hstrand⟩ := hguard.before hne
    exact harmed.elim (fun h => h htimer) hstrand
  · intro hdone
    exact (hguard.after hdone).resolve_left hopen

end UnaryCall

/-- **A deadline guards a call from its submission on, not from its acceptance.** In every reachable
state of a call with a deadline that is neither ended nor about to be, the deadline is watched if
and only if the submit closure has handed the call to the session. -/
theorem deadline_armed_iff (z : Zlib) (ctx : ClientContext) (hd : ctx.hasDeadline = true) :
    (∀ (es : List UnaryCallEvent) (u : UnaryCall),
      (UnaryCall.machine z).run (UnaryCall.new (some ctx)) es = some u → ¬ u.Failing →
        (u.DeadlineArmed ↔ u.phase = .done)) ∧
      ∀ (kind : CallKind) (es : List CallEvent) (w : StreamingCall),
        StreamingCall.machine.run (StreamingCall.new (kind.callState (some ctx))) es = some w →
          w.call.closed = false → (w.DeadlineArmed ↔ w.submitted = true) :=
  ⟨fun _ _ hrun hopen => UnaryCall.armed_iff_submitted hd hrun hopen,
    fun _ _ _ hrun hopen => StreamingCall.armed_iff_submitted hd hrun hopen⟩

/-- The same for a bidirectional and a unary call that were submitted a moment ago. -/
theorem deadline_armed_example :
    (∃ u, (UnaryCall.machine Zlib.none).run (UnaryCall.new (some deadlineContext))
        [.submitCheck .queued, .submitCheck .proceed, .submitBuild (.accepted 1), .setCancelStream,
          .armTimer] = some u ∧ u.DeadlineArmed) ∧
      ∃ w, StreamingCall.machine.run
          (StreamingCall.new (CallKind.bidi.callState (some deadlineContext)))
          [.submit (.accepted 1)] = some w ∧ w.DeadlineArmed := by
  obtain ⟨hunary, hstream⟩ := deadline_armed_iff Zlib.none deadlineContext rfl
  refine ⟨⟨_, rfl, ?_⟩, ⟨_, rfl, ?_⟩⟩
  · exact (hunary [.submitCheck .queued, .submitCheck .proceed, .submitBuild (.accepted 1),
      .setCancelStream, .armTimer] _ rfl (by decide)).2 rfl
  · exact (hstream .bidi [.submit (.accepted 1)] _ rfl rfl).2 rfl

/-- **A queued call with a deadline has no timer**, unary or streaming: nothing ends it when the
deadline passes while the connection is being established. -/
theorem not_deadline_armed :
    (¬ ∀ (z : Zlib) (ctx : ClientContext) (es : List UnaryCallEvent) (u : UnaryCall),
        ctx.hasDeadline = true →
          (UnaryCall.machine z).run (UnaryCall.new (some ctx)) es = some u →
            u.Failing ∨ u.DeadlineArmed) ∧
      ¬ ∀ (kind : CallKind) (ctx : ClientContext) (es : List CallEvent) (w : StreamingCall),
        ctx.hasDeadline = true →
          StreamingCall.machine.run (StreamingCall.new (kind.callState (some ctx))) es = some w →
            w.call.closed = true ∨ w.DeadlineArmed := by
  constructor
  · intro h
    exact absurd (h Zlib.none deadlineContext [.submitCheck .queued] _ rfl rfl) (by decide)
  · intro h
    exact absurd (h .serverStreaming deadlineContext [] _ rfl rfl) (by decide)

end Rpcpio.Client
