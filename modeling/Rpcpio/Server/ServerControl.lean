import Rpcpio.Server.ServerRun

/-!
# The control of a server

What `Start`, `Shutdown` and the `io_context` do to `listening_`, the work guard, the timer and the
transport does not depend on the requests. `Control` is that part of a server, `Control.Move` lists
what a step can do to it, and `step_control` is the only case analysis of the step function that the
statements about it need.
-/

set_option autoImplicit false

namespace Rpcpio.Server

open Rpcpio.Library Rpcpio.Protocol

namespace StopStep

/-- The step of `StopTransport` after this one, as `listening_` is read by the exchange. -/
def next (listening : Bool) : StopStep → Option StopStep
  | .cancelTimer => some .exchange
  | .exchange => some (if listening then .stop else .resetGuard)
  | .stop => some .resetGuard
  | .resetGuard => none

end StopStep

namespace StartStep

/-- `Start` has not stored `listening_` yet, and has not failed. -/
def early : StartStep → Bool
  | .notCalled | .resolvePort | .configureTls | .listen | .setListening => true
  | _ => false

/-- The next step may fail. -/
def canFail : StartStep → Bool
  | .resolvePort | .configureTls | .listen | .spawnThread (_ + 1) => true
  | _ => false

/-- `Start` has failed. -/
def failed : StartStep → Bool
  | .cleanup _ | .wait | .returned false => true
  | _ => false

end StartStep

namespace ShutdownStep

/-- `Shutdown` has not read `listening_` for the second time. -/
def unchecked : ShutdownStep → Bool
  | .notCalled | .stopListening | .collect | .cancelCalls _ | .checkListening => true
  | _ => false

end ShutdownStep

/-- The part of a server that its requests do not touch. -/
structure Control where
  listening : Bool
  workGuard : Bool
  timer : Timer
  startStep : StartStep
  shutdownStep : ShutdownStep
  finishStep : FinishStep
  trace : List TransportEffect
  deriving DecidableEq, Repr

namespace Control

/-- One step of `StopTransport`. -/
def stop (c : Control) : StopStep → Control
  | .cancelTimer => { c with timer := c.timer.cancel }
  | .exchange => { c with listening := false }
  | .stop => { c with trace := c.trace ++ [.stop] }
  | .resetGuard => { c with workGuard := false }

/-- `FinishShutdown` can run: its first run was posted, or the handler of the timer is queued. -/
def FinishReady (c : Control) : Prop :=
  c.finishStep = .posted ∨ (c.finishStep = .waiting ∧ c.timer = .expired)

/-- **What a step can do to the control of a server.** -/
inductive Move (numThreads : Nat) (iocStopped : Bool) (c : Control) : ServerEvent → Control → Prop
  | quiet (e : ServerEvent) : Move numThreads iocStopped c e c
  | start (h : c.startStep = .notCalled) :
      Move numThreads iocStopped c .start { c with startStep := .resolvePort }
  | resolved (h : c.startStep = .resolvePort) :
      Move numThreads iocStopped c .startNext { c with startStep := .configureTls }
  | configured (h : c.startStep = .configureTls) :
      Move numThreads iocStopped c .startNext { c with startStep := .listen }
  | listen (h : c.startStep = .listen) :
      Move numThreads iocStopped c .startNext
        { c with startStep := .setListening, trace := c.trace ++ [.listen] }
  | store (h : c.startStep = .setListening) :
      Move numThreads iocStopped c .startNext
        { c with listening := true, startStep := .spawnThread numThreads }
  | spawn (left : Nat) (h : c.startStep = .spawnThread (left + 1)) :
      Move numThreads iocStopped c .startNext { c with startStep := .spawnThread left }
  | started (h : c.startStep = .spawnThread 0) :
      Move numThreads iocStopped c .startNext { c with startStep := .returned true }
  | fail (h : c.startStep.canFail = true) :
      Move numThreads iocStopped c .startFail
        { c with startStep := .cleanup .cancelTimer, trace := c.trace ++ [.stopTransport] }
  | cleanup (p : StopStep) (h : c.startStep = .cleanup p) :
      Move numThreads iocStopped c .startNext
        { c.stop p with startStep := ((p.next c.listening).map .cleanup).getD .wait }
  | waited (h : c.startStep = .wait) :
      Move numThreads iocStopped c .startNext { c with startStep := .returned false }
  | shutdown (h : c.shutdownStep = .notCalled) :
      Move numThreads iocStopped c .shutdown { c with shutdownStep := .stopListening }
  | stopListening (h : c.shutdownStep = .stopListening) :
      Move numThreads iocStopped c .shutdownNext
        { c with
          shutdownStep := .collect
          trace := c.trace ++ if c.listening then [.stopListening] else [] }
  | collect (calls : List Nat) (h : c.shutdownStep = .collect) :
      Move numThreads iocStopped c .shutdownNext { c with shutdownStep := .cancelCalls calls }
  | cancelCall (i : Nat) (rest : List Nat) (h : c.shutdownStep = .cancelCalls (i :: rest)) :
      Move numThreads iocStopped c .shutdownNext { c with shutdownStep := .cancelCalls rest }
  | cancelled (h : c.shutdownStep = .cancelCalls []) :
      Move numThreads iocStopped c .shutdownNext { c with shutdownStep := .checkListening }
  | listens (h : c.shutdownStep = .checkListening) (hl : c.listening = true) :
      Move numThreads iocStopped c .shutdownNext { c with shutdownStep := .checkStopped }
  | idle (h : c.shutdownStep = .checkListening) (hl : c.listening = false) :
      Move numThreads iocStopped c .shutdownNext
        { c with workGuard := false, shutdownStep := .returned }
  | stopped (h : c.shutdownStep = .checkStopped) (hi : iocStopped = true) :
      Move numThreads iocStopped c .shutdownNext
        { c with shutdownStep := .stopTransport .cancelTimer, trace := c.trace ++ [.stopTransport] }
  | running (h : c.shutdownStep = .checkStopped) (hi : iocStopped = false) :
      Move numThreads iocStopped c .shutdownNext { c with shutdownStep := .post }
  | shutdownStop (p : StopStep) (h : c.shutdownStep = .stopTransport p) :
      Move numThreads iocStopped c .shutdownNext
        { c.stop p with
          shutdownStep := ((p.next c.listening).map .stopTransport).getD .returned }
  | post (h : c.shutdownStep = .post) :
      Move numThreads iocStopped c .shutdownNext
        { c with finishStep := .posted, shutdownStep := .returned }
  | finish (e : ServerEvent) (timer : Timer) (h : c.FinishReady)
      (he : e = .runPosted ∨ e = .timerHandler) :
      Move numThreads iocStopped c e
        { c with
          timer := timer
          finishStep := .stopTransport .cancelTimer
          trace := c.trace ++ [.stopTransport] }
  | finishWait (e : ServerEvent) (h : c.FinishReady) :
      Move numThreads iocStopped c e { c with timer := .armed, finishStep := .waiting }
  | expire (h : c.timer = .armed) :
      Move numThreads iocStopped c .timerExpire { c with timer := .expired }
  | aborted (h : c.finishStep = .waiting) (ht : c.timer = .idle) :
      Move numThreads iocStopped c .timerAborted { c with finishStep := .done }
  | finishStop (p : StopStep) (h : c.finishStep = .stopTransport p) :
      Move numThreads iocStopped c .finishNext
        { c.stop p with finishStep := ((p.next c.listening).map .stopTransport).getD .done }

end Control

namespace ServerRun

/-- The control of the server. -/
def control (s : ServerRun) : Control :=
  ⟨s.listening, s.workGuard, s.timer, s.startStep, s.shutdownStep, s.finishStep, s.trace⟩

/-- The flags that guard `Start` and `Shutdown` are set by their first steps. -/
structure Flagged (s : ServerRun) : Prop where
  started : s.started = false → s.startStep = .notCalled
  shutdown : s.impl.shutdown = false ↔ s.shutdownStep = .notCalled

theorem flagged_new (impl : ServerImpl) (gracePeriod numThreads : Nat) (iocStopped : Bool) :
    (new impl gracePeriod numThreads iocStopped).Flagged := by
  refine ⟨fun _ => rfl, fun _ => rfl, fun _ => rfl⟩

/-- What `StopTransport` leaves alone, and what it does to the control. -/
theorem stopTransport_control (s : ServerRun) (p : StopStep) :
    (s.stopTransport p).1.control = s.control.stop p ∧
      (s.stopTransport p).2 = p.next s.listening := by
  cases p <;> exact ⟨rfl, rfl⟩

theorem requestNext_control {z : Zlib} {s s' : ServerRun} {i : Nat} {r : ServedRequest}
    (h : s.requestNext z i r = some s') : s'.control = s.control := by
  simp only [requestNext] at h
  split at h
  · cases h
    rfl
  · cases h
    rfl
  · obtain ⟨_, _, rfl⟩ := Option.map_eq_some_iff.1 h
    rfl
  · cases h
  · cases h

theorem stepCall_control {z : Zlib} {s s' : ServerRun} {i : Nat} {r : ServedRequest}
    {e : AnyServerCall → AnyServerCallEvent} (h : s.stepCall z i r e = some s') :
    s'.control = s.control := by
  simp only [stepCall] at h
  split at h
  · obtain ⟨_, _, rfl⟩ := Option.map_eq_some_iff.1 h
    rfl
  · cases h

/-- `FinishShutdown` stops the transport or waits on. -/
theorem finishShutdown_control {s : ServerRun} {c : Control} {e : ServerEvent} {timer : Timer}
    (hc : s.control = { c with timer := timer }) (hready : c.FinishReady)
    (he : e = .runPosted ∨ e = .timerHandler) (deadline : Nat) (numThreads : Nat)
    (iocStopped : Bool) :
    c.Move numThreads iocStopped e (s.finishShutdown deadline).control := by
  obtain ⟨hl, hg, ht, hst, hsh, hf, htr⟩ := Control.mk.inj hc
  simp only [finishShutdown]
  split
  · have hmove : c.Move numThreads iocStopped e _ := .finish e timer hready he
    simpa [control, log, hl, hg, ht, hst, hsh, htr] using hmove
  · have hmove : c.Move numThreads iocStopped e _ := .finishWait e hready
    simpa [control, Timer.arm, hl, hg, hst, hsh, htr] using hmove

theorem startNext_control {s s' : ServerRun} (h : s.startNext = some s') :
    s.control.Move s.numThreads s.iocStopped .startNext s'.control := by
  simp only [startNext] at h
  split at h
  · cases h
  · rename_i hs
    cases h
    exact .resolved hs
  · rename_i hs
    cases h
    exact .configured hs
  · rename_i hs
    cases h
    exact .listen hs
  · rename_i hs
    cases h
    exact .store hs
  · rename_i hs
    cases h
    exact .started hs
  · rename_i left hs
    cases h
    exact .spawn left hs
  · rename_i p hs
    cases h
    obtain ⟨hc, hn⟩ := s.stopTransport_control p
    have hmove : s.control.Move s.numThreads s.iocStopped .startNext _ := .cleanup p hs
    rw [← hc] at hmove
    simpa only [control, hn] using hmove
  · rename_i hs
    cases h
    exact .waited hs
  · cases h

theorem startFail_control {s s' : ServerRun} (h : s.startFail = some s') :
    s.control.Move s.numThreads s.iocStopped .startFail s'.control := by
  simp only [startFail] at h
  split at h
  all_goals cases h
  all_goals
    rename_i hs
    exact .fail (by simp [control, hs, StartStep.canFail])

theorem shutdownNext_control {s s' : ServerRun} (h : s.shutdownNext = some s') :
    s.control.Move s.numThreads s.iocStopped .shutdownNext s'.control := by
  simp only [shutdownNext] at h
  split at h
  · cases h
  · rename_i hs
    cases h
    have hmove : s.control.Move s.numThreads s.iocStopped .shutdownNext _ := .stopListening hs
    cases hl : s.listening <;> simpa [control, log, hl] using hmove
  · rename_i hs
    cases h
    exact .collect _ hs
  · rename_i hs
    cases h
    exact .cancelled hs
  · rename_i i rest hs
    cases h
    exact .cancelCall i rest hs
  · rename_i hs
    split at h
    · rename_i hl
      cases h
      exact .listens hs hl
    · rename_i hl
      cases h
      exact .idle hs (by simpa [control] using hl)
  · rename_i hs
    split at h
    · rename_i hi
      cases h
      exact .stopped hs hi
    · rename_i hi
      cases h
      exact .running hs (by simpa using hi)
  · rename_i p hs
    cases h
    -- a step of `Stop` of the transport is one of the control
    obtain ⟨hc, hn⟩ := s.stopTransport_control p
    have hmove : s.control.Move s.numThreads s.iocStopped .shutdownNext _ := .shutdownStop p hs
    rw [← hc] at hmove
    simpa only [control, hn] using hmove
  · rename_i hs
    cases h
    exact .post hs
  · cases h

/-- **Every step moves the control as `Control.Move` says.** -/
theorem step_control {z : Zlib} {s s' : ServerRun} {e : ServerEvent} (hs : s.Flagged)
    (h : s.step z e = some s') :
    s.control.Move s.numThreads s.iocStopped e s'.control := by
  cases e with
  | start =>
      simp only [step, Option.some.injEq] at h
      split at h
      · exact h ▸ .quiet _
      · rename_i hnew
        subst h
        exact .start (hs.started (by simpa using hnew))
  | startNext => exact startNext_control h
  | startFail => exact startFail_control h
  | shutdown =>
      simp only [step, Option.some.injEq] at h
      split at h
      · exact h ▸ .quiet _
      · rename_i hnew
        subst h
        exact .shutdown (hs.shutdown.1 (by simpa using hnew))
  | shutdownNext => exact shutdownNext_control h
  | runPosted =>
      simp only [step, Option.ite_none_right_eq_some, Option.some.injEq] at h
      obtain ⟨hp, rfl⟩ := h
      -- the posted closure and the timer's handler run the same `FinishShutdown`
      have hsame : s.control = { s.control with timer := s.timer } := rfl
      exact finishShutdown_control hsame (Or.inl hp) (Or.inl rfl) _ _ _
  | timerExpire =>
      obtain ⟨t, ht, rfl⟩ := Option.map_eq_some_iff.1 h
      obtain ⟨harmed, rfl⟩ := Timer.expire_eq_some ht
      exact .expire harmed
  | timerHandler =>
      simp only [step, Option.ite_none_right_eq_some] at h
      obtain ⟨hw, h⟩ := h
      obtain ⟨t, ht, rfl⟩ := Option.map_eq_some_iff.1 h
      obtain ⟨hexpired, _⟩ := Timer.fire_eq_some ht
      have hfired : { s with timer := t }.control = { s.control with timer := t } := rfl
      exact finishShutdown_control hfired (Or.inr ⟨hw, hexpired⟩) (Or.inr rfl) _ _ _
  | timerAborted =>
      simp only [step, Option.ite_none_right_eq_some, Option.some.injEq] at h
      obtain ⟨⟨hw, ht⟩, rfl⟩ := h
      exact .aborted hw ht
  | finishNext =>
      simp only [step] at h
      split at h
      · rename_i p hp
        cases h
        obtain ⟨hc, hn⟩ := s.stopTransport_control p
        have hmove : s.control.Move s.numThreads s.iocStopped .finishNext _ := .finishStop p hp
        rw [← hc] at hmove
        simpa only [control, hn] using hmove
      · cases h
  | tick =>
      cases h
      exact .quiet _
  -- the requests and their calls do not touch the control
  | request req =>
      simp only [step, Option.ite_none_right_eq_some, Option.some.injEq] at h
      obtain ⟨_, rfl⟩ := h
      exact .quiet _
  | requestNext i =>
      obtain ⟨r, _, h⟩ := Option.bind_eq_some_iff.1 h
      exact requestNext_control h ▸ .quiet _
  | callEvent i e =>
      simp only [step, Option.ite_none_right_eq_some] at h
      obtain ⟨r, _, h⟩ := Option.bind_eq_some_iff.1 h.2
      exact stepCall_control h ▸ .quiet _
  | runCancel i slot =>
      obtain ⟨r, _, h⟩ := Option.bind_eq_some_iff.1 h
      split at h
      · cases h
      · exact stepCall_control h ▸ .quiet _
  | expireCall i =>
      obtain ⟨r, _, h⟩ := Option.bind_eq_some_iff.1 h
      simp only [Option.ite_none_right_eq_some, Option.some.injEq] at h
      obtain ⟨_, rfl⟩ := h
      exact .quiet _

/-! ## What every step keeps -/

/-- The options do not change, and neither do the handlers and the flags, but for the calls of
`Start` and `Shutdown`. -/
structure Keeps (s : ServerRun) (e : ServerEvent) (s' : ServerRun) : Prop where
  gracePeriod : s'.gracePeriod = s.gracePeriod
  numThreads : s'.numThreads = s.numThreads
  iocStopped : s'.iocStopped = s.iocStopped
  started : e ≠ .start → s'.started = s.started
  impl : e ≠ .shutdown → s'.impl = s.impl

theorem keeps_of_eq {s s' : ServerRun} {e : ServerEvent} (hg : s'.gracePeriod = s.gracePeriod)
    (hn : s'.numThreads = s.numThreads) (hi : s'.iocStopped = s.iocStopped)
    (hs : s'.started = s.started) (himpl : s'.impl = s.impl) : Keeps s e s' :=
  ⟨hg, hn, hi, fun _ => hs, fun _ => himpl⟩

theorem keeps_stopTransport (s : ServerRun) (e : ServerEvent) (p : StopStep) :
    Keeps s e (s.stopTransport p).1 := by
  cases p <;> exact keeps_of_eq rfl rfl rfl rfl rfl

theorem keeps_finishShutdown (s : ServerRun) (e : ServerEvent) (deadline : Nat) :
    Keeps s e (s.finishShutdown deadline) := by
  simp only [finishShutdown]
  split <;> exact keeps_of_eq rfl rfl rfl rfl rfl

theorem keeps_requestNext {z : Zlib} {s s' : ServerRun} {e : ServerEvent} {i : Nat}
    {r : ServedRequest} (h : s.requestNext z i r = some s') : Keeps s e s' := by
  simp only [requestNext] at h
  split at h
  · cases h
    exact keeps_of_eq rfl rfl rfl rfl rfl
  · cases h
    exact keeps_of_eq rfl rfl rfl rfl rfl
  · obtain ⟨_, _, rfl⟩ := Option.map_eq_some_iff.1 h
    exact keeps_of_eq rfl rfl rfl rfl rfl
  · cases h
  · cases h

theorem keeps_stepCall {z : Zlib} {s s' : ServerRun} {e : ServerEvent} {i : Nat}
    {r : ServedRequest} {f : AnyServerCall → AnyServerCallEvent}
    (h : s.stepCall z i r f = some s') : Keeps s e s' := by
  simp only [stepCall] at h
  split at h
  · obtain ⟨_, _, rfl⟩ := Option.map_eq_some_iff.1 h
    exact keeps_of_eq rfl rfl rfl rfl rfl
  · cases h

theorem step_keeps {z : Zlib} {s s' : ServerRun} {e : ServerEvent} (h : s.step z e = some s') :
    Keeps s e s' := by
  cases e with
  | start =>
      -- a second `Start` returns at once
      simp only [step, Option.some.injEq] at h
      split at h <;> subst h <;> exact ⟨rfl, rfl, rfl, fun hne => absurd rfl hne, fun _ => rfl⟩
  | startNext =>
      simp only [step, startNext] at h
      split at h
      -- a statement of the clean-up after a failed start
      case h_8 p hs =>
        cases h
        obtain ⟨h1, h2, h3, h4, h5⟩ := s.keeps_stopTransport .startNext p
        exact ⟨h1, h2, h3, h4, h5⟩
      all_goals cases h
      all_goals exact keeps_of_eq rfl rfl rfl rfl rfl
  | startFail =>
      simp only [step, startFail] at h
      split at h
      all_goals cases h
      all_goals exact keeps_of_eq rfl rfl rfl rfl rfl
  | shutdown =>
      simp only [step, Option.some.injEq] at h
      split at h <;> subst h <;> exact ⟨rfl, rfl, rfl, fun _ => rfl, fun hne => absurd rfl hne⟩
  | shutdownNext =>
      simp only [step, shutdownNext] at h
      split at h
      -- a statement of `StopTransport`, run by `Shutdown` itself
      case h_8 p hs =>
        cases h
        obtain ⟨h1, h2, h3, h4, h5⟩ := s.keeps_stopTransport .shutdownNext p
        exact ⟨h1, h2, h3, h4, h5⟩
      all_goals try split at h
      all_goals cases h
      all_goals exact keeps_of_eq rfl rfl rfl rfl rfl
  | runPosted =>
      simp only [step, Option.ite_none_right_eq_some, Option.some.injEq] at h
      obtain ⟨_, rfl⟩ := h
      exact s.keeps_finishShutdown _ _
  | timerExpire =>
      obtain ⟨t, _, rfl⟩ := Option.map_eq_some_iff.1 h
      exact keeps_of_eq rfl rfl rfl rfl rfl
  | timerHandler =>
      simp only [step, Option.ite_none_right_eq_some] at h
      obtain ⟨t, _, rfl⟩ := Option.map_eq_some_iff.1 h.2
      obtain ⟨h1, h2, h3, h4, h5⟩ :=
        { s with timer := t }.keeps_finishShutdown .timerHandler s.nextDeadline
      exact ⟨h1, h2, h3, h4, h5⟩
  | timerAborted =>
      simp only [step, Option.ite_none_right_eq_some, Option.some.injEq] at h
      obtain ⟨_, rfl⟩ := h
      exact keeps_of_eq rfl rfl rfl rfl rfl
  | finishNext =>
      simp only [step] at h
      split at h
      · rename_i p _
        cases h
        obtain ⟨h1, h2, h3, h4, h5⟩ := s.keeps_stopTransport .finishNext p
        exact ⟨h1, h2, h3, h4, h5⟩
      · cases h
  | tick =>
      cases h
      exact keeps_of_eq rfl rfl rfl rfl rfl
  | request req =>
      simp only [step, Option.ite_none_right_eq_some, Option.some.injEq] at h
      obtain ⟨_, rfl⟩ := h
      exact keeps_of_eq rfl rfl rfl rfl rfl
  -- the events of one request or call
  | requestNext i =>
      obtain ⟨r, _, h⟩ := Option.bind_eq_some_iff.1 h
      exact keeps_requestNext h
  | callEvent i e =>
      simp only [step, Option.ite_none_right_eq_some] at h
      obtain ⟨r, _, h⟩ := Option.bind_eq_some_iff.1 h.2
      exact keeps_stepCall h
  | runCancel i slot =>
      obtain ⟨r, _, h⟩ := Option.bind_eq_some_iff.1 h
      split at h
      · cases h
      · exact keeps_stepCall h
  | expireCall i =>
      obtain ⟨r, _, h⟩ := Option.bind_eq_some_iff.1 h
      simp only [Option.ite_none_right_eq_some, Option.some.injEq] at h
      obtain ⟨_, rfl⟩ := h
      exact keeps_of_eq rfl rfl rfl rfl rfl

/-- Only the first `Start` leaves `notCalled`. -/
theorem move_notCalled {c c' : Control} {n : Nat} {b : Bool} {e : ServerEvent}
    (h : c.Move n b e c') (he : e ≠ .start) (hc : c.startStep = .notCalled) :
    c'.startStep = .notCalled := by
  cases h with
  | start _ => exact absurd rfl he
  | shutdownStop p _ => cases p <;> exact hc
  | finishStop p _ => cases p <;> exact hc
  | fail h => simp [hc, StartStep.canFail] at h
  | resolved h => simp [hc] at h
  | configured h => simp [hc] at h
  | listen h => simp [hc] at h
  | store h => simp [hc] at h
  | spawn left h => simp [hc] at h
  | started h => simp [hc] at h
  | cleanup p h => simp [hc] at h
  | waited h => simp [hc] at h
  | _ => exact hc

/-- Only the first `Shutdown` leaves `notCalled`, and none goes back. -/
theorem move_shutdown_notCalled {c c' : Control} {n : Nat} {b : Bool} {e : ServerEvent}
    (h : c.Move n b e c') (he : e ≠ .shutdown) :
    c'.shutdownStep = .notCalled ↔ c.shutdownStep = .notCalled := by
  cases h with
  | shutdown _ => exact absurd rfl he
  | cleanup p _ => cases p <;> exact Iff.rfl
  | finishStop p _ => cases p <;> exact Iff.rfl
  | shutdownStop p h =>
      simp only [h, reduceCtorEq, iff_false]
      cases p <;> simp [StopStep.next]
  | stopListening h => simp [h]
  | collect calls h => simp [h]
  | cancelCall i rest h => simp [h]
  | cancelled h => simp [h]
  | listens h _ => simp [h]
  | idle h _ => simp [h]
  | stopped h _ => simp [h]
  | running h _ => simp [h]
  | post h => simp [h]
  | _ => exact Iff.rfl

theorem flagged_step {z : Zlib} {s s' : ServerRun} {e : ServerEvent} (hs : s.Flagged)
    (h : s.step z e = some s') : s'.Flagged := by
  have hkeeps := step_keeps h
  have hmove := step_control hs h
  refine ⟨fun hf => ?_, ?_⟩
  · by_cases he : e = .start
    · subst he
      simp only [step, Option.some.injEq] at h
      split at h <;> subst h
      · exact hs.started hf
      · cases hf
    · exact move_notCalled hmove he (hs.started ((hkeeps.started he) ▸ hf))
  · by_cases he : e = .shutdown
    · subst he
      simp only [step, Option.some.injEq] at h
      split at h <;> subst h
      · exact hs.shutdown
      · simp
    · rw [hkeeps.impl he]
      exact hs.shutdown.trans (move_shutdown_notCalled hmove he).symm

end ServerRun

end Rpcpio.Server
