import Rpcpio.Server.Admission

/-!
# What the grace period waits for

`FinishShutdown` stops the transport as soon as `active_calls_` holds no open call. But `Shutdown`
has moved the calls that it cancels out of `active_calls_`, so what is left there are the calls that
were tracked since: those that escaped the collection. The cancelled calls are waited for only as
long as one of these is open (`graceful_shutdown_iff`).
-/

set_option autoImplicit false

namespace Rpcpio.Server

open Rpcpio.Library Rpcpio.Protocol

namespace ServerRun

/-- Every call that `Shutdown` collected is terminal. -/
def CollectedEnded (s : ServerRun) : Prop :=
  ∀ i ∈ s.calls, ∀ r ∈ s.requests[i]?, r.isTerminal = true

/-- A call that was tracked after the collection is open. -/
def LateOpen (s : ServerRun) : Prop := ∃ r ∈ s.requests, r.late = true ∧ r.isTerminal = false

instance (s : ServerRun) : Decidable s.CollectedEnded :=
  inferInstanceAs (Decidable (∀ i ∈ s.calls, _))

instance (s : ServerRun) : Decidable s.LateOpen :=
  inferInstanceAs (Decidable (∃ r ∈ s.requests, _))

/-- The deadline of `FinishShutdown` has passed. -/
def DeadlinePassed (s : ServerRun) : Prop := ∃ d ∈ s.deadline, d ≤ s.now

instance (s : ServerRun) : Decidable s.DeadlinePassed :=
  inferInstanceAs (Decidable (∃ d ∈ s.deadline, _))

/-- The transport may be stopped: the collected calls are terminal, or the grace period is over. -/
def Patient (s : ServerRun) : Prop := s.CollectedEnded ∨ s.DeadlinePassed

/-- The step does not begin `StopTransport` too early. -/
def StopsPatiently (z : Zlib) (s : ServerRun) (e : ServerEvent) : Prop :=
  ∀ s', s.step z e = some s' → s'.trace = s.trace ++ [.stopTransport] → s'.Patient

/-- The condition on a step: if `FinishShutdown` runs before its deadline, a call that was tracked
after the collection is open, or every collected call is terminal; and `Start` does not fail while
collected calls are open before the deadline. -/
def WaitsForCollected (s : ServerRun) : ServerEvent → Prop
  | .runPosted => s.now < s.nextDeadline → s.LateOpen ∨ s.CollectedEnded
  | .timerHandler => s.now < s.nextDeadline → s.LateOpen ∨ s.CollectedEnded
  | .startFail => s.Patient
  | _ => True

instance (s : ServerRun) : Decidable s.Patient := inferInstanceAs (Decidable (_ ∨ _))

instance (s : ServerRun) (e : ServerEvent) : Decidable (s.WaitsForCollected e) :=
  match e with
  | .runPosted | .timerHandler => inferInstanceAs (Decidable (_ → _ ∨ _))
  | .startFail => inferInstanceAs (Decidable s.Patient)
  | .start | .startNext | .shutdown | .shutdownNext | .timerExpire | .timerAborted | .finishNext
  | .tick | .request _ | .requestNext _ | .callEvent _ _ | .runCancel _ _ | .expireCall _ =>
      isTrue trivial

/-- **`FinishShutdown` looks at the calls that were tracked after the collection**, and at no
others. -/
theorem active_nil_iff {s : ServerRun} (hs : s.Registered) (hcol : s.Collected) :
    (s.activeCalls.filter fun i => !s.isOver i) = [] ↔ ¬ s.LateOpen := by
  rw [List.filter_eq_nil_iff]
  constructor
  · rintro h ⟨r, hr, hlate, hopen⟩
    obtain ⟨i, hi⟩ := List.mem_iff_getElem?.1 hr
    have hadm := hs.admitted i r hi
    have hlive : r.expired = false := by
      cases he : r.expired with
      | false => rfl
      | true =>
          rw [hadm.expired he] at hopen
          cases hopen
    have hmem := (hadm.alive hcol hlate).resolve_left (by simp [hopen])
    exact h i hmem (by simp [isOver, hi, hopen, hlive])
  · intro h i hmem hlive
    cases hi : s.requests[i]? with
    | none => simp [isOver, hi] at hlive
    | some r =>
        have hadm := hs.admitted i r hi
        have hlate := (hadm.active hmem).2 hcol
        have hopen : r.isTerminal = false := by
          simp only [isOver, hi, Bool.not_or, Bool.and_eq_true, Bool.not_eq_true'] at hlive
          exact hlive.2
        exact h ⟨r, List.mem_of_getElem? hi, hlate, hopen⟩

/-- `FinishShutdown` leaves the calls alone and keeps its deadline. -/
theorem finishShutdown_patient (s : ServerRun) (deadline : Nat) :
    (s.finishShutdown deadline).Patient ↔ s.CollectedEnded ∨ deadline ≤ s.now := by
  have hfields : (s.finishShutdown deadline).calls = s.calls ∧
      (s.finishShutdown deadline).requests = s.requests ∧
      (s.finishShutdown deadline).deadline = some deadline ∧
      (s.finishShutdown deadline).now = s.now := by
    simp only [finishShutdown]
    split <;> exact ⟨rfl, rfl, rfl, rfl⟩
  obtain ⟨hcalls, hrequests, hdeadline, hnow⟩ := hfields
  simp [Patient, CollectedEnded, DeadlinePassed, hcalls, hrequests, hdeadline, hnow]

/-- **When `FinishShutdown` stops the transport.** -/
theorem finishShutdown_stops {s t : ServerRun} (hs : s.Registered) (hcol : s.Collected)
    {timer : Timer} (ht : t = { s with timer := timer }) (deadline : Nat) :
    (t.finishShutdown deadline).trace = s.trace ++ [.stopTransport] ↔
      ¬ s.LateOpen ∨ deadline ≤ s.now := by
  subst ht
  rw [← active_nil_iff hs hcol, ← List.isEmpty_iff]
  have hover : ∀ i, ({ s with timer := timer } : ServerRun).isOver i = s.isOver i := fun _ => rfl
  simp only [finishShutdown, hover]
  split
  · rename_i h
    simp only [Bool.or_eq_true, decide_eq_true_eq] at h
    exact ⟨fun _ => h, fun _ => rfl⟩
  · rename_i h
    have hsame : s.trace ≠ s.trace ++ [.stopTransport] := by simp
    simp only [Bool.or_eq_true, decide_eq_true_eq] at h
    exact ⟨fun heq => absurd heq hsame, fun hor => absurd hor h⟩

/-- A run of `FinishShutdown` begins `StopTransport` too early exactly if it comes before the
deadline, no late call is open, and a collected call is. -/
theorem finish_patient_iff {s t : ServerRun} (hs : s.Registered)
    (hposted : s.finishStep ≠ .notPosted)
    {timer : Timer} (ht : t = { s with timer := timer }) (deadline : Nat) :
    ((t.finishShutdown deadline).trace = s.trace ++ [.stopTransport] →
        (t.finishShutdown deadline).Patient) ↔
      (s.now < deadline → s.LateOpen ∨ s.CollectedEnded) := by
  have hcol : s.Collected := by simp [Collected, hs.posted hposted]
  rw [finishShutdown_stops hs hcol ht, finishShutdown_patient]
  have hended : t.CollectedEnded ↔ s.CollectedEnded := by
    subst ht
    exact Iff.rfl
  have hnow : t.now = s.now := by rw [ht]
  rw [hended, hnow]
  constructor
  · intro h hbefore
    by_cases hlate : s.LateOpen
    · exact Or.inl hlate
    · exact Or.inr ((h (Or.inl hlate)).resolve_right (Nat.not_le.2 hbefore))
  · intro h hstop
    by_cases hbefore : s.now < deadline
    · have hno := hstop.resolve_right (Nat.not_le.2 hbefore)
      exact Or.inl ((h hbefore).resolve_left hno)
    · exact Or.inr (Nat.not_lt.1 hbefore)

/-- On a running `io_context` only these steps begin `StopTransport`. -/
theorem stopTransport_move {c c' : Control} {n : Nat} {e : ServerEvent}
    (h : c.Move n false e c') (ht : c'.trace = c.trace ++ [.stopTransport]) :
    e = .startFail ∨ e = .runPosted ∨ e = .timerHandler := by
  have hsame : c.trace ≠ c.trace ++ [.stopTransport] := by simp
  cases h with
  | fail _ => exact Or.inl rfl
  | finish e timer _ he => exact Or.inr he
  | stopped _ hi => cases hi
  | listen _ => simp at ht
  | stopListening _ => cases hl : c.listening <;> simp [hl] at ht
  | cleanup p _ => cases p <;> simp [Control.stop] at ht
  | shutdownStop p _ => cases p <;> simp [Control.stop] at ht
  | finishStop p _ => cases p <;> simp [Control.stop] at ht
  | _ => exact absurd ht hsame

/-- **A step stops the transport patiently exactly if it waits for the collected calls.** -/
theorem patient_iff {z : Zlib} {s s' : ServerRun} {e : ServerEvent} (hs : s.Registered)
    (hioc : s.iocStopped = false) (h : s.step z e = some s') :
    s.StopsPatiently z e ↔ s.WaitsForCollected e := by
  have hstep : s.StopsPatiently z e ↔ (s'.trace = s.trace ++ [.stopTransport] → s'.Patient) := by
    constructor
    · exact fun hp => hp s' h
    · intro hp t ht
      rw [h, Option.some.injEq] at ht
      exact ht ▸ hp
  rw [hstep]
  have hmove := step_control hs.flagged h
  rw [hioc] at hmove
  have hquiet : e ≠ .startFail → e ≠ .runPosted → e ≠ .timerHandler →
      (s'.trace = s.trace ++ [.stopTransport] → s'.Patient) := by
    intro h1 h2 h3 htrace
    rcases stopTransport_move hmove htrace with he | he | he
    · exact absurd he h1
    · exact absurd he h2
    · exact absurd he h3
  cases e with
  | startFail =>
      simp only [step, startFail] at h
      split at h <;> cases h
      all_goals exact ⟨fun hp => hp rfl, fun hp _ => hp⟩
  | runPosted =>
      simp only [step, Option.ite_none_right_eq_some, Option.some.injEq] at h
      obtain ⟨hp, rfl⟩ := h
      exact finish_patient_iff hs (by simp [hp]) rfl _
  | timerHandler =>
      simp only [step, Option.ite_none_right_eq_some] at h
      obtain ⟨hw, h⟩ := h
      obtain ⟨t, _, rfl⟩ := Option.map_eq_some_iff.1 h
      have hposted : s.finishStep ≠ .notPosted := by simp [hw]
      exact finish_patient_iff hs hposted rfl _
  | _ => exact ⟨fun _ => trivial, fun _ => hquiet (by simp) (by simp) (by simp)⟩

end ServerRun

/-- **The grace period waits for the calls that escaped, not for those that were cancelled.** In
every run of a server whose `io_context` is run, `StopTransport` never begins while a call that
`Shutdown` collected is open and the deadline has not passed, if and only if every run of
`FinishShutdown` before the deadline finds a later call open or all collected calls terminal, and
`Start` does not fail meanwhile. -/
theorem graceful_shutdown_iff (z : Zlib) (impl : ServerImpl) (gracePeriod numThreads : Nat)
    (es : List ServerEvent) (s : ServerRun)
    (hrun : (ServerRun.machine z).run (ServerRun.new impl gracePeriod numThreads false) es =
      some s) :
    (ServerRun.machine z).Along (ServerRun.StopsPatiently z)
        (ServerRun.new impl gracePeriod numThreads false) es ↔
      (ServerRun.machine z).Along ServerRun.WaitsForCollected
        (ServerRun.new impl gracePeriod numThreads false) es := by
  refine Machine.along_iff_along (M := ServerRun.machine z)
    (I := fun s => s.Registered ∧ s.iocStopped = false) (fun t e t' ht hst => ?_)
    (fun t e t' ht hst => ServerRun.patient_iff ht.1 ht.2 hst)
    ⟨ServerRun.registered_new _ _ _ _, rfl⟩ hrun
  exact ⟨ServerRun.registered_step ht.1 hst, (ServerRun.step_keeps hst).iocStopped.trans ht.2⟩

/-- A listening server with a running call, up to the end of `Shutdown`. -/
def callEvents : List ServerEvent :=
  startEvents ++ .request unaryRequest :: List.replicate 3 (.requestNext 0) ++
    .shutdown :: List.replicate 7 .shutdownNext

/-- A call that is closed before `FinishShutdown` runs does not make it stop too early. -/
theorem graceful_shutdown_example :
    (ServerRun.machine Zlib.none).Along (ServerRun.StopsPatiently Zlib.none)
      (ServerRun.new unaryServer 30 1 false)
      (callEvents ++ [.runCancel 0 [], .callEvent 0 (.unary .close), .runPosted]) :=
  (graceful_shutdown_iff Zlib.none unaryServer 30 1
    (callEvents ++ [.runCancel 0 [], .callEvent 0 (.unary .close), .runPosted]) _ rfl).2
    (by decide)

/-- **`FinishShutdown` stops the transport under a cancelled call**: it runs before the call's
`Cancel` closure and `OnClose`, at once and with the whole grace period left. -/
theorem not_graceful_shutdown :
    ¬ ∀ (z : Zlib) (impl : ServerImpl) (gracePeriod numThreads : Nat) (es : List ServerEvent)
      (s : ServerRun),
      (ServerRun.machine z).run (ServerRun.new impl gracePeriod numThreads false) es = some s →
        (ServerRun.machine z).Along (ServerRun.StopsPatiently z)
          (ServerRun.new impl gracePeriod numThreads false) es := by
  intro h
  have halong := h Zlib.none unaryServer 30 1 (callEvents ++ [.runPosted]) _ rfl
  have hpatient := (Machine.along_append halong rfl).2.1 _ rfl rfl
  exact absurd hpatient (by decide)

end Rpcpio.Server
