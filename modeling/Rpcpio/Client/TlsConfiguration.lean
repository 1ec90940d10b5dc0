import Rpcpio.Client.ChannelDraining

/-!
# A TLS configuration error

`BuildTlsContext` fails inside `DoConnect`, in the middle of the operation that started the
connection. The channel is then shut down before it has a session, and its status is kept in
`terminal_status_`: the callbacks of `Connect` and the queued unary calls are given it as an
argument, the queued streaming calls and everything later read it through `ShutdownStatus`.
`Refusing` is the invariant of such a channel; its `verdict` is the one status with which anything
is answered (`tls_error_sticky`).
-/

set_option autoImplicit false

namespace Rpcpio.Client

open Rpcpio.Library Rpcpio.Protocol

/-! ## The calls -/

/-- A unary call of a channel that never connects: its completion was invoked at most once, by the
channel itself, with the verdict or because the call had been cancelled. -/
structure SubmittedUnary.Told (verdict : Option Status) (u : SubmittedUnary) : Prop where
  streamId : u.streamId = none
  ioc : u.completion.ioc = []
  invoked : u.completion.invoked = []
  direct : u.direct = [] ∨ (u.cancelled = true ∧ u.direct = [cancelledResult]) ∨
    ∃ s, verdict = some s ∧ u.direct = [UnaryResultRaw.of s]

/-- A streaming call of a channel that never connects: untouched, or failed with the verdict, which
its handles show once the posted closure has run. -/
structure SubmittedStreaming.Told (verdict : Option Status) (t : SubmittedStreaming) : Prop where
  streamId : t.streamId = none
  timer : t.state.timer = .idle
  outcome : (t.delivered = 0 ∧ t.state.closed = false ∧ t.ioc = [] ∧ t.state.Shows none) ∨
    ∃ s, verdict = some s ∧ t.delivered = 1 ∧
      ((t.ioc = [.failed s] ∧ t.state.Shows none) ∨ (t.ioc = [] ∧ t.state.Shows (some s)))

namespace SubmittedUnary

theorem told_new (ctx : Option ClientContext) : (new ctx).Told none :=
  ⟨rfl, rfl, rfl, Or.inl rfl⟩

theorem Told.mono {verdict : Option Status} {u : SubmittedUnary} (h : u.Told none) :
    u.Told verdict := by
  refine ⟨h.streamId, h.ioc, h.invoked, ?_⟩
  rcases h.direct with hd | hd | ⟨s, hs, _⟩
  · exact Or.inl hd
  · exact Or.inr (Or.inl hd)
  · cases hs

/-- Without a stream and without posted callbacks nothing happens to the call. -/
theorem Told.step {z : Zlib} {verdict : Option Status} {u u' : SubmittedUnary} {e : UnaryEvent}
    (h : u.Told verdict) (hstep : u.step z e = some u') : u' = u := by
  cases e with
  | runIoc i => simp [SubmittedUnary.step, UnaryCompletion.step, h.ioc] at hstep
  | _ => simp [SubmittedUnary.step, h.streamId] at hstep

end SubmittedUnary

namespace SubmittedStreaming

theorem told_new (kind : CallKind) (ctx : Option ClientContext) : (new kind ctx).Told none := by
  refine ⟨rfl, by cases kind <;> rfl, Or.inl ⟨rfl, by cases kind <;> rfl, rfl, ?_⟩⟩
  cases kind <;> exact ⟨fun v hv => by cases hv <;> rfl, fun v hv => by cases hv <;> rfl⟩

theorem Told.mono {verdict : Option Status} {t : SubmittedStreaming} (h : t.Told none) :
    t.Told verdict := by
  refine ⟨h.streamId, h.timer, ?_⟩
  rcases h.outcome with ho | ⟨s, hs, _⟩
  · exact Or.inl ho
  · cases hs

/-- The channel refuses a call that it has not touched. -/
theorem Told.refuse {verdict : Option Status} {t : SubmittedStreaming} {s : Status}
    (h : t.Told verdict) (hv : verdict = some s) (hw : t.delivered = 0) :
    (t.refuse s).Told verdict := by
  rcases h.outcome with ⟨_, hopen, hioc, hshows⟩ | ⟨s', _, hd, _⟩
  · have hfail : t.state.fail s =
        ({ t.state with closed := true, timer := t.state.timer.cancel }, [.failed s]) := by
      simp [StreamingCallState.fail, hopen]
    refine ⟨h.streamId, ?_, Or.inr ⟨s, hv, ?_, Or.inl ⟨?_, ?_⟩⟩⟩
    · simp [SubmittedStreaming.refuse, fail, after, hfail, h.timer, Timer.cancel]
    · simp [SubmittedStreaming.refuse, hw]
    · simp [SubmittedStreaming.refuse, fail, after, hfail, hioc]
    · exact hshows.congr (StreamingCallState.statusView_fail t.state s)
  · rw [hw] at hd
    cases hd

/-- Reading and writing on the handles of a refused call changes nothing of its outcome. -/
theorem Told.congr {verdict : Option Status} {t t' : SubmittedStreaming} (h : t.Told verdict)
    (hid : t'.streamId = t.streamId) (htimer : t'.state.timer = t.state.timer)
    (hd : t'.delivered = t.delivered) (hc : t'.state.closed = t.state.closed)
    (hioc : t'.ioc = t.ioc) (hview : t'.state.statusView = t.state.statusView) :
    t'.Told verdict := by
  refine ⟨hid.trans h.streamId, htimer.trans h.timer, ?_⟩
  rw [hd, hc, hioc]
  rcases h.outcome with ⟨h0, hopen, hnil, hshows⟩ | ⟨s, hs, h1, ⟨hpost, hshows⟩ | ⟨hnil, hshows⟩⟩
  · exact Or.inl ⟨h0, hopen, hnil, hshows.congr hview⟩
  · exact Or.inr ⟨s, hs, h1, Or.inl ⟨hpost, hshows.congr hview⟩⟩
  · exact Or.inr ⟨s, hs, h1, Or.inr ⟨hnil, hshows.congr hview⟩⟩

/-- Every event of the call keeps its outcome; the posted closure publishes it. -/
theorem Told.step {verdict : Option Status} {t t' : SubmittedStreaming} {e : StreamingEvent}
    (hv : ∀ s, verdict = some s → s.isOk = false) (h : t.Told verdict)
    (hstep : t.step e = some t') : t'.Told verdict := by
  cases e with
  | expire =>
      obtain ⟨x, hx, rfl⟩ := Option.map_eq_some_iff.1 hstep
      rw [h.timer] at hx
      cases hx
  | timerHandler =>
      obtain ⟨x, hx, rfl⟩ := Option.map_eq_some_iff.1 hstep
      rw [h.timer] at hx
      cases hx
  | enqueue frame =>
      obtain ⟨_, heq⟩ := Option.ite_none_right_eq_some.1 hstep
      cases heq
      exact h.congr rfl rfl rfl rfl rfl
        (StreamingCallState.statusView_mapWriter t.state fun _ => rfl)
  | writesDone =>
      obtain ⟨_, heq⟩ := Option.ite_none_right_eq_some.1 hstep
      cases heq
      exact h.congr rfl rfl rfl rfl rfl
        (StreamingCallState.statusView_mapWriter t.state fun _ => rfl)
  | read =>
      obtain ⟨_, heq⟩ := Option.ite_none_right_eq_some.1 hstep
      cases heq
      refine h.congr rfl rfl rfl rfl rfl ?_
      cases hr : t.state.reader <;>
        simp [StreamingCallState.statusView, hr, RawClientReaderImpl.read,
          RawClientReaderImpl.finish]
  | runIoc i =>
      obtain ⟨task, hi, rfl⟩ := Option.map_eq_some_iff.1 hstep
      rcases h.outcome with ⟨_, _, hnil, _⟩ | ⟨s, hs, h1, ⟨hpost, hshows⟩ | ⟨hnil, _⟩⟩
      · simp [hnil] at hi
      · have hi0 : i = 0 ∧ task = .failed s := by
          rw [hpost] at hi
          cases i with
          | zero => exact ⟨rfl, (Option.some.inj hi).symm⟩
          | succ n => cases hi
        obtain ⟨rfl, rfl⟩ := hi0
        refine ⟨h.streamId, h.timer, Or.inr ⟨s, hs, h1, Or.inr ⟨by simp [hpost], ?_⟩⟩⟩
        exact StreamingCallState.shows_publishError (hv s hs) (Or.inl hshows)
      · simp [hnil] at hi
  | _ => simp [SubmittedStreaming.step, h.streamId] at hstep

end SubmittedStreaming

namespace ChannelCall

/-- A call of a channel that never connects. -/
def Told (verdict : Option Status) : ChannelCall → Prop
  | .unary u => u.Told verdict
  | .streaming t => t.Told verdict

variable {verdict : Option Status} {c c' : ChannelCall}

theorem Told.mono (h : c.Told none) : c.Told verdict := by
  cases c with
  | unary u => exact SubmittedUnary.Told.mono h
  | streaming t => exact SubmittedStreaming.Told.mono h

theorem Told.streamId (h : c.Told verdict) : c.streamId = none := by
  cases c with
  | unary u => exact SubmittedUnary.Told.streamId h
  | streaming t => exact SubmittedStreaming.Told.streamId h

/-- A waiting call is refused with the verdict. -/
theorem Told.refuse {s : Status} (h : c.Told verdict) (hv : verdict = some s) (hw : c.Waiting) :
    (c.refuse s).Told verdict := by
  cases c with
  | unary u =>
      have hu : u.Told verdict := h
      have hdirect : u.direct = [] := SubmittedUnary.Waiting.direct hw
      refine ⟨hu.streamId, hu.ioc, hu.invoked, Or.inr (Or.inr ⟨s, hv, ?_⟩)⟩
      simp [SubmittedUnary.refuse, hdirect]
  | streaming t => exact SubmittedStreaming.Told.refuse h hv hw

/-- A waiting call that has been cancelled is refused with CANCELLED. -/
theorem Told.refuse_cancelled (h : c.Told verdict) (hc : c.cancelled = true) (hw : c.Waiting) :
    (c.refuse callCancelled).Told verdict := by
  cases c with
  | unary u =>
      have hu : u.Told verdict := h
      have hdirect : u.direct = [] := SubmittedUnary.Waiting.direct hw
      refine ⟨hu.streamId, hu.ioc, hu.invoked, Or.inr (Or.inl ⟨hc, ?_⟩)⟩
      simp [SubmittedUnary.refuse, hdirect, cancelledResult]
  | streaming t => cases hc

theorem Told.storeCancelled (h : c.Told verdict) : c.storeCancelled.Told verdict := by
  cases c with
  | unary u =>
      have hu : u.Told verdict := h
      refine ⟨hu.streamId, hu.ioc, hu.invoked, ?_⟩
      rcases hu.direct with hd | ⟨_, hd⟩ | hd
      · exact Or.inl hd
      · exact Or.inr (Or.inl ⟨rfl, hd⟩)
      · exact Or.inr (Or.inr hd)
  | streaming t => exact h

theorem Told.stepUnary {z : Zlib} {e : UnaryEvent} (h : c.Told verdict)
    (hstep : c.stepUnary z e = some c') : c'.Told verdict := by
  cases c with
  | unary u =>
      obtain ⟨u', hu', rfl⟩ := Option.map_eq_some_iff.1 hstep
      rw [SubmittedUnary.Told.step h hu']
      exact h
  | streaming t => cases hstep

theorem Told.stepStreaming {e : StreamingEvent} (hv : ∀ s, verdict = some s → s.isOk = false)
    (h : c.Told verdict) (hstep : c.stepStreaming e = some c') : c'.Told verdict := by
  cases c with
  | unary u => cases hstep
  | streaming t =>
      obtain ⟨t', ht', rfl⟩ := Option.map_eq_some_iff.1 hstep
      exact SubmittedStreaming.Told.step hv h ht'

end ChannelCall

/-! ## The channel -/

/-- What a frame still has to say agrees with the verdict; nothing is submitted. -/
def Frame.Carries (verdict : Option Status) : Frame → Prop
  | .user => True
  | .notifyWaiters _ s => verdict = some s
  | .drainReady => False
  | .submitCalls _ => False
  | .drainGeneric => verdict.isSome = true
  | .runGeneric _ => verdict.isSome = true
  | .failAll s => verdict = some s
  | .completePending _ s => verdict = some s
  | .shutdownActive => verdict = some channelShutDown

namespace Channel

/-- The status with which a channel that never connects answers everything: none as long as it has
not been used, and from then on what `ShutdownStatus` returns. -/
def verdict (c : Channel) : Option Status :=
  if c.impl.state = .idle then none else some c.impl.shutdownStatus

/-- What holds of a channel whose TLS configuration fails with `s`. -/
structure Refusing (s : Status) (c : Channel) : Prop where
  configuration : c.configuration = some s
  noSession : c.impl.session = false ∧ c.impl.connectingSession = false ∧ c.callbacks = false
  state : (c.impl.state = .idle ∧ c.impl.terminalStatus = none) ∨ (c.impl.state = .shutdown ∧
    (c.impl.terminalStatus = none ∨ c.impl.terminalStatus = some s))
  active : c.impl.activeCalls = [] ∧ c.impl.activeStreamingCalls = []
  tasks : ∀ t ∈ c.strand, t.isSession = false
  frames : ∀ f ∈ c.stack, f.Carries c.verdict
  notified : ∀ p ∈ c.notified, c.verdict = some p.2
  calls : ∀ (i : CallId) (call : ChannelCall), c.calls[i]? = some call → call.Told c.verdict

namespace Refusing

variable {s : Status} {c : Channel}

theorem new (s : Status) : Refusing s (Channel.new (some s)) :=
  ⟨rfl, ⟨rfl, rfl, rfl⟩, Or.inl ⟨rfl, rfl⟩, ⟨rfl, rfl⟩, by simp [Channel.new],
    by simp [Channel.new], by simp [Channel.new], by simp [Channel.new]⟩

theorem verdict_idle (h : c.impl.state = .idle) : c.verdict = none := if_pos h

theorem verdict_shutdown (h : c.impl.state = .shutdown) :
    c.verdict = some c.impl.shutdownStatus := by
  simp [verdict, h]

/-- A channel that is not idle is shut down. -/
theorem shutdown (h : Refusing s c) (hv : c.verdict.isSome = true) : c.impl.state = .shutdown := by
  rcases h.state with ⟨hidle, _⟩ | ⟨hshut, _⟩
  · rw [verdict_idle hidle] at hv
    cases hv
  · exact hshut

/-- The verdict is an error. -/
theorem verdict_not_ok (hs : s.isOk = false) (h : Refusing s c) :
    ∀ σ, c.verdict = some σ → σ.isOk = false := by
  intro σ hσ
  have hshut := h.shutdown (by rw [hσ]; rfl)
  rw [verdict_shutdown hshut, Option.some.injEq] at hσ
  subst hσ
  rcases h.state with ⟨hidle, _⟩ | ⟨_, ht | ht⟩
  · rw [hshut] at hidle
    cases hidle
  · simp only [ChannelImpl.shutdownStatus, ht, Option.getD_none]
    rfl
  · simpa [ChannelImpl.shutdownStatus, ht] using hs

theorem push (h : Refusing s c) {fs : List Frame} (hfs : ∀ f ∈ fs, f.Carries c.verdict) :
    Refusing s (c.push fs) := by
  refine ⟨h.configuration, h.noSession, h.state, h.active, h.tasks, fun f hf => ?_, h.notified,
    h.calls⟩
  rcases List.mem_append.1 hf with hf | hf
  · exact hfs f hf
  · exact h.frames f hf

theorem push_user (h : Refusing s c) : Refusing s (c.push [.user]) := by
  apply h.push
  intro f hf
  rw [List.mem_singleton.1 hf]
  trivial

theorem notify (h : Refusing s c) {σ : Status} (hv : c.verdict = some σ) (w : WaiterId) :
    Refusing s (c.notify w σ) := by
  have hmore : Refusing s { c with notified := c.notified ++ [(w, σ)] } := by
    refine ⟨h.configuration, h.noSession, h.state, h.active, h.tasks, h.frames, fun p hp => ?_,
      h.calls⟩
    rcases List.mem_append.1 hp with hp | hp
    · exact h.notified p hp
    · rw [List.mem_singleton.1 hp]
      exact hv
  exact hmore.push_user

/-- A member function of a call that keeps what the call has been told. -/
theorem modify (h : Refusing s c) {i : CallId} {f : ChannelCall → ChannelCall}
    (hf : ∀ call, c.calls[i]? = some call → (f call).Told c.verdict) :
    Refusing s (c.modify i f) := by
  refine ⟨h.configuration, h.noSession, h.state, h.active, h.tasks, h.frames, h.notified,
    fun j call hj => ?_⟩
  simp only [Channel.modify, Ledger.getElem?_modify, Option.map_eq_some_iff] at hj
  obtain ⟨call', hcall', rfl⟩ := hj
  simp only [Ledger.onlyAt]
  split
  · rename_i hij
    subst hij
    exact hf call' hcall'
  · exact h.calls j call' hcall'

/-- The channel answers a waiting call itself. -/
theorem refuse (h : Refusing s c) {i : CallId} {σ : Status} (hv : c.verdict = some σ)
    (hw : ∀ call, c.calls[i]? = some call → call.Waiting) : Refusing s (c.refuse i σ) := by
  have hmodify : Refusing s (c.modify i (ChannelCall.refuse σ)) :=
    h.modify fun call hcall => (h.calls i call hcall).refuse hv (hw call hcall)
  exact hmodify.push_user

theorem refuse_cancelled (h : Refusing s c) {i : CallId}
    (hw : ∀ call, c.calls[i]? = some call → call.Waiting ∧ call.cancelled = true) :
    Refusing s (c.refuse i callCancelled) := by
  have hmodify : Refusing s (c.modify i (ChannelCall.refuse callCancelled)) :=
    h.modify fun call hcall =>
      (h.calls i call hcall).refuse_cancelled (hw call hcall).2 (hw call hcall).1
  exact hmodify.push_user

/-- The channel leaves the idle state: nothing had been said before. -/
theorem leaveIdle (h : Refusing s c) (hidle : c.impl.state = .idle) {d : Channel}
    (hconf : d.configuration = c.configuration)
    (hsession : d.impl.session = false ∧ d.impl.connectingSession = false ∧ d.callbacks = false)
    (hstate : d.impl.state = .shutdown)
    (hterminal : d.impl.terminalStatus = none ∨ d.impl.terminalStatus = some s)
    (hactive : d.impl.activeCalls = c.impl.activeCalls ∧
      d.impl.activeStreamingCalls = c.impl.activeStreamingCalls)
    (hstrand : d.strand = c.strand) (hnotified : d.notified = c.notified)
    (hcalls : d.calls = c.calls)
    (hstack : ∃ fs, d.stack = fs ++ c.stack ∧ ∀ f ∈ fs, f.Carries d.verdict) : Refusing s d := by
  have hnone := verdict_idle hidle
  obtain ⟨fs, hfs, hcarries⟩ := hstack
  refine ⟨hconf.trans h.configuration, hsession, Or.inr ⟨hstate, hterminal⟩,
    ⟨hactive.1.trans h.active.1, hactive.2.trans h.active.2⟩, hstrand ▸ h.tasks, ?_, ?_, ?_⟩
  · intro f hf
    rw [hfs] at hf
    rcases List.mem_append.1 hf with hf | hf
    · exact hcarries f hf
    · have hold := h.frames f hf
      rw [hnone] at hold
      cases f with
      | user => trivial
      | drainReady => exact hold.elim
      | submitCalls ids => exact hold.elim
      | _ => cases hold
  · intro p hp
    rw [hnotified] at hp
    have hold := h.notified p hp
    rw [hnone] at hold
    cases hold
  · intro i call hcall
    rw [hcalls] at hcall
    have hold := h.calls i call hcall
    rw [hnone] at hold
    exact hold.mono

/-- **`DoConnect` shuts the channel down with `s`.** -/
theorem startConnecting (h : Refusing s c) : Refusing s c.startConnecting := by
  by_cases hidle : c.impl.state = .idle
  · rw [Channel.startConnecting, if_pos hidle]
    simp only [doConnect, h.configuration]
    refine h.leaveIdle hidle h.configuration.symm h.noSession rfl (Or.inr rfl) ⟨rfl, rfl⟩ rfl rfl
      rfl ⟨_, rfl, ?_⟩
    intro f hf
    simp only [List.mem_cons, List.not_mem_nil, or_false] at hf
    rcases hf with rfl | rfl <;> exact verdict_shutdown rfl
  · rw [Channel.startConnecting, if_neg hidle]
    exact h

theorem connect (h : Refusing s c) (w : WaiterId) : Refusing s (c.connect w) := by
  rcases h.state with ⟨hidle, _⟩ | ⟨hshut, _⟩
  · simp only [Channel.connect, hidle]
    have hwait : Refusing s { c with impl := { c.impl with
        connectWaiters := c.impl.connectWaiters ++ [w] } } :=
      ⟨h.configuration, h.noSession, h.state, h.active, h.tasks, h.frames, h.notified, h.calls⟩
    simpa only [hidle] using hwait.startConnecting
  · simp only [Channel.connect, hshut]
    exact h.notify (verdict_shutdown hshut) w

theorem submit (h : Refusing s c) {i : CallId}
    (hw : ∀ call, c.calls[i]? = some call → call.Waiting) (o : BuildOutcome) :
    Refusing s (c.submit i o) := by
  simp only [Channel.submit]
  split
  · exact h
  · rename_i call hcall
    split
    · rename_i hcancelled
      apply h.refuse_cancelled
      intro other hother
      rw [hcall, Option.some.injEq] at hother
      subst hother
      exact ⟨hw call hcall, hcancelled⟩
    · rcases h.state with ⟨hidle, _⟩ | ⟨hshut, _⟩
      · simp only [hidle]
        have hwait : Refusing s { c with impl := c.impl.enqueue call.isUnary i } := by
          simp only [ChannelImpl.enqueue]
          split <;> exact ⟨h.configuration, h.noSession, h.state, h.active, h.tasks, h.frames,
            h.notified, h.calls⟩
        exact hwait.startConnecting
      · simp only [hshut]
        exact h.refuse (verdict_shutdown hshut) hw

/-- `Shutdown` of an idle channel gives CANCELLED as the verdict; later it does nothing. -/
theorem doShutdown (h : Refusing s c) : Refusing s c.doShutdown := by
  rcases h.state with ⟨hidle, hnone⟩ | ⟨hshut, _⟩
  · rw [Channel.doShutdown, if_neg (by simp [hidle])]
    refine h.leaveIdle hidle rfl ⟨rfl, rfl, ?_⟩ rfl (Or.inl hnone) ⟨rfl, rfl⟩ rfl rfl rfl
      ⟨_, rfl, ?_⟩
    · simp [Channel.push, h.noSession.2.2]
    · intro f hf
      have hverdict : some (ChannelImpl.shutdownStatus c.impl) = some channelShutDown := by
        simp [ChannelImpl.shutdownStatus, hnone]
      simp only [List.mem_cons, List.not_mem_nil, or_false] at hf
      rcases hf with rfl | rfl <;> exact (verdict_shutdown rfl).trans hverdict
  · rw [Channel.doShutdown, if_pos hshut]
    exact h

/-- No call is active when `DoShutdown` goes on. -/
theorem failActive (h : Refusing s c) (hv : c.verdict = some channelShutDown) :
    Refusing s c.failActive := by
  have hsame : Refusing s { c with
      impl := { c.impl with activeCalls := [], activeStreamingCalls := [] }
      calls := failCalls ((c.impl.activeCalls ++ c.impl.activeStreamingCalls).map Prod.snd)
        channelShutDown c.calls } := by
    refine ⟨h.configuration, h.noSession, h.state, ⟨rfl, rfl⟩, h.tasks, h.frames, h.notified, ?_⟩
    simp only [h.active.1, h.active.2]
    exact h.calls
  apply hsame.push
  intro f hf
  rw [List.mem_singleton.1 hf]
  exact hv

theorem runTask (h : Refusing s c) {t : ChannelTask} (ht : t.isSession = false)
    (hw : ∀ i ∈ t.calls, ∀ call, c.calls[i]? = some call → call.Waiting) (o : BuildOutcome) :
    Refusing s (c.runTask t o) := by
  cases t with
  | connect w => exact h.connect w
  | submit i => exact h.submit (hw i List.mem_cons_self) o
  | shutdown => exact h.doShutdown
  | onConnect => cases ht
  | onError e => cases ht
  | onGoaway lastStreamId => cases ht
  | close i errorCode =>
      simp only [Channel.runTask, Channel.close]
      split
      · exact h
      · rename_i call hcall
        -- there is no stream to close
        simp only [(h.calls i call hcall).streamId]
        exact h

theorem runFrame (h : Refusing s c) {f : Frame} (hf : f.Carries c.verdict)
    (hw : ∀ i ∈ f.calls, ∀ call, c.calls[i]? = some call → call.Waiting) (o : BuildOutcome) :
    Refusing s (c.runFrame f o) := by
  have hone : ∀ {g : Frame}, g.Carries c.verdict → ∀ x ∈ [g], x.Carries c.verdict := by
    intro g hg x hx
    rw [List.mem_singleton.1 hx]
    exact hg
  cases f with
  | user => exact h
  | notifyWaiters ws σ =>
      cases ws with
      | nil => exact h
      | cons w ws =>
          have hpushed : Refusing s (c.push [.notifyWaiters ws σ]) := h.push (hone hf)
          exact hpushed.notify hf w
  -- a channel that refuses its configuration never becomes ready
  | drainReady => exact hf.elim
  | submitCalls ids => exact hf.elim
  | drainGeneric =>
      have hmoved : Refusing s { c with impl := { c.impl with pendingGenericCalls := [] } } :=
        ⟨h.configuration, h.noSession, h.state, h.active, h.tasks, h.frames, h.notified, h.calls⟩
      exact hmoved.push (hone hf)
  | runGeneric ids =>
      cases ids with
      | nil => exact h
      | cons i ids =>
          have hpushed : Refusing s (c.push [.runGeneric ids]) := h.push (hone hf)
          exact hpushed.submit (hw i List.mem_cons_self) o
  | failAll σ =>
      have hmoved : Refusing s { c with impl := { c.impl with pendingCalls := [] } } :=
        ⟨h.configuration, h.noSession, h.state, h.active, h.tasks, h.frames, h.notified, h.calls⟩
      -- the calls of the queue, and the frame that goes on with the other queue
      apply hmoved.push
      intro g hg
      simp only [List.mem_cons, List.not_mem_nil, or_false] at hg
      rcases hg with rfl | rfl
      · exact hf
      · exact Option.isSome_iff_exists.2 ⟨σ, hf⟩
  | completePending ids σ =>
      cases ids with
      | nil => exact h
      | cons i ids =>
          have hpushed : Refusing s (c.push [.completePending ids σ]) := h.push (hone hf)
          exact hpushed.refuse hf (hw i List.mem_cons_self)
  | shutdownActive => exact h.failActive hf

theorem give (h : Refusing s c) (op : ChannelOp) : Refusing s (c.give op).1 := by
  have hnew : ∀ {n : ChannelCall}, n.Told none → ∀ (i : CallId) (call : ChannelCall),
      (c.calls ++ [n])[i]? = some call → call.Told c.verdict := by
    intro n hn i call hcall
    rcases Nat.lt_or_ge i c.calls.length with hlt | hge
    · exact h.calls i call (by rwa [List.getElem?_append_left hlt] at hcall)
    · rw [List.getElem?_append_right hge] at hcall
      rw [List.mem_singleton.1 (List.mem_of_getElem? hcall)]
      exact hn.mono
  cases op with
  | connect =>
      exact ⟨h.configuration, h.noSession, h.state, h.active, h.tasks, h.frames, h.notified,
        h.calls⟩
  | submitCall ctx =>
      exact ⟨h.configuration, h.noSession, h.state, h.active, h.tasks, h.frames, h.notified,
        hnew (n := .unary (SubmittedUnary.new ctx)) (SubmittedUnary.told_new ctx)⟩
  | submitStreaming kind ctx =>
      exact ⟨h.configuration, h.noSession, h.state, h.active, h.tasks, h.frames, h.notified,
        hnew (n := .streaming (SubmittedStreaming.new kind ctx))
          (SubmittedStreaming.told_new kind ctx)⟩
  | shutdown => exact h

theorem enqueue (h : Refusing s c) {t : ChannelTask} (ht : t.isSession = false) :
    Refusing s (c.enqueue t) := by
  refine ⟨h.configuration, h.noSession, h.state, h.active, fun t' ht' => ?_, h.frames, h.notified,
    h.calls⟩
  rcases List.mem_append.1 ht' with ht' | ht'
  · exact h.tasks t' ht'
  · rw [List.mem_singleton.1 ht']
    exact ht

/-- A call goes on. -/
theorem set (h : Refusing s c) {i : CallId} {call' : ChannelCall} (htold : call'.Told c.verdict) :
    Refusing s { c with calls := c.calls.set i call' } := by
  refine ⟨h.configuration, h.noSession, h.state, h.active, h.tasks, h.frames, h.notified,
    fun j other hj => ?_⟩
  simp only [List.getElem?_set] at hj
  split at hj
  · split at hj
    · rw [Option.some.injEq] at hj
      subst hj
      exact htold
    · cases hj
  · exact h.calls j other hj

/-- **Every event keeps a misconfigured channel refusing.** -/
theorem step {z : Zlib} {c' : Channel} {e : ChannelEvent} (hs : s.isOk = false)
    (hinv : c.Invariant) (h : Refusing s c) (hstep : Channel.step z c e = some c') :
    Refusing s c' := by
  have hstack : ∀ {f : Frame} {rest : List Frame}, c.stack = f :: rest →
      Refusing s { c with stack := rest } ∧ f.Carries c.verdict := by
    intro f rest heq
    refine ⟨⟨h.configuration, h.noSession, h.state, h.active, h.tasks, fun g hg => ?_, h.notified,
      h.calls⟩, ?_⟩
    · exact h.frames g (heq ▸ List.mem_cons_of_mem _ hg)
    · exact h.frames f (heq ▸ List.mem_cons_self)
  cases step_move hstep with
  | post op => exact (h.give op).enqueue (c.isSession_give op)
  | callInline op o hstk ho =>
      have hgive := advance_give hinv.ledger op
      exact (h.give op).runTask (c.isSession_give op)
        (fun i hi => hgive.sound.waiting i (List.mem_append_left _ hi)) o
  | callbackReturns hstk => exact (hstack hstk).1
  | @runStrand t rest o hempty hstrand ho =>
      have hrest : Refusing s { c with strand := rest } :=
        ⟨h.configuration, h.noSession, h.state, h.active,
          fun t' ht' => h.tasks t' (hstrand ▸ List.mem_cons_of_mem _ ht'), h.frames, h.notified,
          h.calls⟩
      have hled := hinv.ledger
      rw [ledger_strand hstrand] at hled
      exact hrest.runTask (h.tasks t (hstrand ▸ List.mem_cons_self))
        (fun i hi => hled.waiting i (List.mem_append_left _ hi)) o
  | resume o hstk ho =>
      have hled := (advance_stack hinv.ledger hstk).sound
      obtain ⟨hrest, hcarries⟩ := hstack hstk
      exact hrest.runFrame hcarries
        (fun i hi => hled.waiting i (List.mem_append_left _ hi)) o
  | shutdownStopped hempty => exact h.doShutdown
  -- without a session there are none of its callbacks, and no stream is open
  | sessionConnected hcallbacks => simp [h.noSession.2.2] at hcallbacks
  | sessionError e hcallbacks => simp [h.noSession.2.2] at hcallbacks
  | sessionGoaway lastStreamId hcallbacks => simp [h.noSession.2.2] at hcallbacks
  | streamClosed errorCode hcall hid => simp [(h.calls _ _ hcall).streamId] at hid
  | unary hcall he => exact h.set ((h.calls _ _ hcall).stepUnary he)
  | streaming hmay hcall he =>
      exact h.set ((h.calls _ _ hcall).stepStreaming (h.verdict_not_ok hs) he)
  | cancelControl hcall => exact h.set (h.calls _ _ hcall).storeCancelled

end Refusing

/-- A channel whose TLS configuration fails, after any run. -/
theorem refusing_reachable {z : Zlib} {s : Status} {es : List ChannelEvent} {c : Channel}
    (hs : s.isOk = false) (hrun : (machine z).run (new (some s)) es = some c) : Refusing s c := by
  have hboth := Machine.run_invariant (M := machine z) (I := fun d => d.Invariant ∧ Refusing s d)
    (fun _ _ _ hd hstep => ⟨invariant_step hd.1 hstep, hd.2.step hs hd.1 hstep⟩) es _ c
    ⟨invariant_new (some s), Refusing.new s⟩ hrun
  exact hboth.2

/-! ## The status is kept -/

theorem terminal_submit {c : Channel} (hs : c.impl.state = .shutdown) (i : CallId)
    (o : BuildOutcome) : (c.submit i o).impl.terminalStatus = c.impl.terminalStatus := by
  simp only [submit, hs]
  split
  · rfl
  · split <;> rfl

theorem terminal_doShutdown (c : Channel) :
    c.doShutdown.impl.terminalStatus = c.impl.terminalStatus := by
  simp only [doShutdown]
  split <;> rfl

theorem terminal_runTask {c : Channel} (hs : c.impl.state = .shutdown) (t : ChannelTask)
    (o : BuildOutcome) : (c.runTask t o).impl.terminalStatus = c.impl.terminalStatus := by
  cases t with
  | connect w =>
      simp only [runTask, connect, hs]
      rfl
  | submit i => exact terminal_submit hs i o
  | shutdown => exact terminal_doShutdown c
  | onConnect =>
      simp only [runTask, onConnect, hs, if_true]
  | onError e => simp only [runTask, onError, hs]
  | onGoaway lastStreamId => simp only [runTask, hs, if_true]
  | close i errorCode =>
      simp only [runTask, close]
      split
      · rfl
      · split
        · rfl
        · simp only [modify, ChannelImpl.removeActive]
          split <;> rfl

theorem terminal_runFrame {c : Channel} (hs : c.impl.state = .shutdown) (f : Frame)
    (o : BuildOutcome) : (c.runFrame f o).impl.terminalStatus = c.impl.terminalStatus := by
  cases f with
  | notifyWaiters ws s => cases ws <;> rfl
  | submitCalls ids =>
      cases ids with
      | nil => rfl
      | cons i ids => exact terminal_submit (c := c.push [.submitCalls ids]) hs i o
  | runGeneric ids =>
      cases ids with
      | nil => rfl
      | cons i ids => exact terminal_submit (c := c.push [.runGeneric ids]) hs i o
  | completePending ids s => cases ids <;> rfl
  | _ => rfl

/-- **A channel that has been shut down keeps its status.** -/
theorem terminal_step {z : Zlib} {c c' : Channel} {e : ChannelEvent}
    (hs : c.impl.state = .shutdown) (hstep : step z c e = some c') :
    c'.impl.terminalStatus = c.impl.terminalStatus := by
  cases step_move hstep with
  | post op => simp only [enqueue, impl_give]
  | callInline op o hstk ho =>
      have hshut : (c.give op).1.impl.state = .shutdown := by rw [impl_give, hs]
      rw [terminal_runTask hshut, impl_give]
  | @runStrand t rest o hempty hstrand ho =>
      exact terminal_runTask (c := { c with strand := rest }) hs t o
  | @resume f rest o hstk ho => exact terminal_runFrame (c := { c with stack := rest }) hs f o
  | shutdownStopped hempty => exact terminal_doShutdown c
  | _ => rfl

theorem terminal_run {z : Zlib} {c c' : Channel} {es : List ChannelEvent} (h : c.Invariant)
    (hs : c.impl.state = .shutdown) (hrun : (machine z).run c es = some c') :
    c'.impl.terminalStatus = c.impl.terminalStatus := by
  have hboth := Machine.run_invariant (M := machine z)
    (I := fun d => d.Invariant ∧ d.impl.state = .shutdown ∧
      d.impl.terminalStatus = c.impl.terminalStatus) ?_ es c c' ⟨h, hs, rfl⟩ hrun
  · exact hboth.2.2
  · rintro d e d' ⟨hinv, hshut, hterminal⟩ hstep
    refine ⟨invariant_step hinv hstep, (dead_step hinv.phased (Or.inr hshut) hstep).2 hshut, ?_⟩
    exact (terminal_step hshut hstep).trans hterminal

end Channel

/-- The call was completed once, with `s` unless it had been cancelled before. -/
def ChannelCall.CompletedWith (s : Status) : ChannelCall → Prop
  | .unary u => u.completions = 1 ∧ (u.cancelled = false → u.direct = [UnaryResultRaw.of s])
  | .streaming t => t.delivered = 1 ∧ t.state.statusReady = true ∧ t.state.Shows (some s)

/-- A call that was answered by a channel with the verdict `s`. -/
theorem ChannelCall.Told.completedWith {s : Status} {call : ChannelCall} (h : call.Told (some s))
    (ha : call.Answered) (hd : call.drained = true) : call.CompletedWith s := by
  cases call with
  | unary u =>
      have hu : u.Told (some s) := h
      have hone : u.completions = 1 := ha
      refine ⟨hone, fun hc => ?_⟩
      rcases hu.direct with hnil | ⟨hcancelled, _⟩ | ⟨σ, hσ, hdirect⟩
      · simp [SubmittedUnary.completions, hnil, hu.invoked] at hone
      · rw [hc] at hcancelled
        cases hcancelled
      · rw [hdirect, Option.some.inj hσ]
  | streaming t =>
      have ht : t.Told (some s) := h
      obtain ⟨hone, hready⟩ : t.delivered = 1 ∧ t.state.statusReady = true := ha
      have hnil : t.ioc = [] := by simpa [ChannelCall.drained] using hd
      refine ⟨hone, hready, ?_⟩
      rcases ht.outcome with ⟨h0, _⟩ | ⟨σ, hσ, _, ⟨hpost, _⟩ | ⟨_, hshows⟩⟩
      · rw [hone] at h0
        cases h0
      · rw [hnil] at hpost
        cases hpost
      · rw [Option.some.inj hσ]
        exact hshows

/-- What a channel guarantees once `DoConnect` has found the configuration error `s`: it keeps the
status; whatever has been answered was answered with it and once; what is left to do gets done; and
then everything has been answered. -/
structure StickyError (z : Zlib) (s : Status) (c : Channel) : Prop where
  kept : ∀ es c', (Channel.machine z).run c es = some c' → c'.impl.terminalStatus = some s
  notified : ∀ p ∈ c.notified, p.2 = s
  notifiedOnce : (c.notified.map Prod.fst).Nodup
  calls : ∀ call ∈ c.calls, call.Told (some s)
  drains : ∃ es c', (∀ e ∈ es, ChannelEvent.IsWork e) ∧
    (Channel.machine z).run c es = some c' ∧ c'.Drained
  completed : c.Drained → (∀ w, w < c.waiters → (c.notified.map Prod.fst).count w = 1) ∧
    ∀ call ∈ c.calls, call.CompletedWith s

/-- **A TLS configuration error is sticky.** A channel whose `BuildTlsContext` returns the error `s`
never has a session; and once `DoConnect` has run, every callback of `Connect` and every call, given
before or after, is answered exactly once and with `s`, whatever the application does in between. -/
theorem tls_error_sticky (z : Zlib) (s : Status) (hs : s.isOk = false) (es : List ChannelEvent)
    (c : Channel) (hrun : (Channel.machine z).run (Channel.new (some s)) es = some c) :
    (c.impl.session = false ∧ c.impl.connectingSession = false ∧ c.callbacks = false) ∧
      (c.impl.terminalStatus ≠ none → StickyError z s c) := by
  have hinv := Channel.invariant_reachable hrun
  have hrefusing := Channel.refusing_reachable hs hrun
  refine ⟨hrefusing.noSession, fun hne => ?_⟩
  obtain ⟨hshut, hterminal⟩ : c.impl.state = .shutdown ∧ c.impl.terminalStatus = some s := by
    rcases hrefusing.state with ⟨_, hnone⟩ | ⟨hshut, hnone | hsome⟩
    · exact absurd hnone hne
    · exact absurd hnone hne
    · exact ⟨hshut, hsome⟩
  have hverdict : c.verdict = some s := by
    rw [Channel.Refusing.verdict_shutdown hshut, ChannelImpl.shutdownStatus, hterminal]
    rfl
  have htold : ∀ call ∈ c.calls, call.Told (some s) := by
    intro call hmem
    obtain ⟨i, hi⟩ := List.mem_iff_getElem?.1 hmem
    exact hverdict ▸ hrefusing.calls i call hi
  refine ⟨fun fs c' hfs => ?_, fun p hp => ?_, ?_, htold, Channel.exists_drained hinv hshut,
    fun hd => ?_⟩
  · exact (Channel.terminal_run hinv hshut hfs).trans hterminal
  · have hp' := hrefusing.notified p hp
    rw [hverdict, Option.some.injEq] at hp'
    exact hp'.symm
  · have hnodup : c.heldWaiters.Nodup := Custody.nodup hinv.waiters
    simp only [Channel.heldWaiters, List.nodup_append] at hnodup
    exact hnodup.2.1.2.1.2.1
  · obtain ⟨hwaiters, hcalls⟩ := hinv.answered hshut hd.strand hd.stack hd.calls
    exact ⟨hwaiters, fun call hmem =>
      (htold call hmem).completedWith (hcalls call hmem) (hd.calls call hmem)⟩

/-- The status of a certificate without a key. -/
def certificateWithoutKey : Status :=
  Status.of .invalidArgument
    (text "client certificate and private key files must be set together")

/-- A unary call starts the connection; a `Connect`, a bidi call and a `Shutdown` follow while its
completion runs. -/
theorem tls_error_sticky_example :
    ∃ c, (Channel.machine Zlib.none).run (Channel.new (some certificateWithoutKey))
        [.post (.submitCall none), .runStrand Channel.noStream, .resume Channel.noStream,
          .resume Channel.noStream, .resume Channel.noStream,
          .callInline .connect Channel.noStream, .callbackReturns,
          .callInline (.submitStreaming .bidi none) Channel.noStream, .callbackReturns,
          .callInline .shutdown Channel.noStream, .callbackReturns, .resume Channel.noStream,
          .resume Channel.noStream, .resume Channel.noStream, .streaming 1 (.runIoc 0)] = some c ∧
      c.Drained ∧ c.calls.length = 2 ∧ c.waiters = 1 ∧
        StickyError Zlib.none certificateWithoutKey c := by
  refine ⟨_, rfl, ⟨rfl, rfl, by decide⟩, rfl, rfl, ?_⟩
  exact (tls_error_sticky Zlib.none certificateWithoutKey rfl
    [.post (.submitCall none), .runStrand Channel.noStream, .resume Channel.noStream,
      .resume Channel.noStream, .resume Channel.noStream, .callInline .connect Channel.noStream,
      .callbackReturns, .callInline (.submitStreaming .bidi none) Channel.noStream,
      .callbackReturns, .callInline .shutdown Channel.noStream, .callbackReturns,
      .resume Channel.noStream, .resume Channel.noStream, .resume Channel.noStream,
      .streaming 1 (.runIoc 0)] _ rfl).2 (by decide)

end Rpcpio.Client
