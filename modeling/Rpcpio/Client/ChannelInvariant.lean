import Rpcpio.Client.ChannelPhases

/-!
# No call is lost by the channel

`Channel.Invariant` joins the ledger, the callbacks of `Connect` and the phases; every event keeps
it. A channel that has failed or shut down stays so and submits nothing any more (`dead_run`).
`no_call_lost` draws the conclusions for the states between two closures, and for a channel that has
been shut down and whose posted work has been done.
-/

set_option autoImplicit false

namespace Rpcpio.Client

open Rpcpio.Library Rpcpio.Protocol

namespace Channel

/-- What holds of a channel after every event. -/
structure Invariant (c : Channel) : Prop where
  ledger : c.ledger.Sound
  waiters : c.WaitersKept
  phased : c.Phased

theorem invariant_new (configuration : Option Status) : (new configuration).Invariant := by
  refine ⟨⟨Custody.empty, ?_, ?_, ?_, ?_, ?_⟩, Custody.empty, phased_new configuration⟩
  all_goals simp [ledger, new, queued, ChannelImpl.new]

/-- **Every event keeps the invariant.** -/
theorem invariant_step {z : Zlib} {c c' : Channel} {e : ChannelEvent} (h : c.Invariant)
    (hstep : step z c e = some c') : c'.Invariant :=
  ⟨(step_advance h.ledger hstep).sound, step_waiters h.waiters hstep, step_phased h.phased hstep⟩

theorem invariant_run {z : Zlib} {c c' : Channel} {es : List ChannelEvent} (h : c.Invariant)
    (hrun : (machine z).run c es = some c') : c'.Invariant :=
  Machine.run_invariant (M := machine z) (I := Invariant)
    (fun _ _ _ hs hstep => invariant_step hs hstep) es c c' h hrun

/-- A channel after a run from its construction. -/
theorem invariant_reachable {z : Zlib} {configuration : Option Status} {c : Channel}
    {es : List ChannelEvent} (hrun : (machine z).run (new configuration) es = some c) :
    c.Invariant :=
  invariant_run (invariant_new configuration) hrun

/-- **The calls of a channel evolve**: none is dropped, and what is settled stays settled. -/
theorem calls_run {z : Zlib} {c c' : Channel} {es : List ChannelEvent} (h : c.Invariant)
    (hrun : (machine z).run c es = some c') :
    ∀ (i : CallId) (call : ChannelCall), c.calls[i]? = some call →
      ∃ call', c'.calls[i]? = some call' ∧ ChannelCall.Evolves call call' := by
  have hboth := Machine.run_invariant (M := machine z)
    (I := fun d => d.Invariant ∧ ∀ (i : CallId) (call : ChannelCall), c.calls[i]? = some call →
      ∃ call', d.calls[i]? = some call' ∧ ChannelCall.Evolves call call')
    ?_ es c c' ⟨h, fun i call hcall => ⟨call, hcall, ChannelCall.Evolves.refl call⟩⟩ hrun
  · exact hboth.2
  · rintro d e d' ⟨hd, hcalls⟩ hstep
    refine ⟨invariant_step hd hstep, fun i call hcall => ?_⟩
    obtain ⟨mid, hmid, hev⟩ := hcalls i call hcall
    obtain ⟨last, hlast, hev'⟩ := (step_advance hd.ledger hstep).calls i mid hmid
    exact ⟨last, hlast, hev.trans hev'⟩

/-! ## Failed channels -/

/-- The channel has failed or has been shut down. -/
def Dead (c : Channel) : Prop := c.impl.state = .failed ∨ c.impl.state = .shutdown

theorem Steady.dead {c c' : Channel} (h : Steady c c') (hd : c.Dead) :
    c'.Dead ∧ (c.impl.state = .shutdown → c'.impl.state = .shutdown) := by
  rcases h with ⟨hs, _⟩ | ⟨hidle, _⟩ | ⟨hs, _⟩
  · simp only [Dead]
    rw [hs]
    exact ⟨hd, id⟩
  · rcases hd with hd | hd <;> rw [hidle] at hd <;> cases hd
  · exact ⟨Or.inr hs, fun _ => hs⟩

/-- A closure of the session does not revive a dead channel. -/
theorem dead_runTask {c : Channel} {t : ChannelTask} {rest : List ChannelTask} (h : c.Phased)
    (hd : c.Dead) (hs : c.strand = t :: rest) (o : BuildOutcome) :
    ({ c with strand := rest }.runTask t o).Dead ∧ (c.impl.state = .shutdown →
      ({ c with strand := rest }.runTask t o).impl.state = .shutdown) := by
  cases ht : t.isSession with
  | false => exact (steady_runTask { c with strand := rest } o ht).dead hd
  | true =>
      have hexp : c.Expected t := h.session.tasks t (by rw [hs]; exact List.mem_cons_self)
      rcases hd with hfailed | hshut
      · refine ⟨Or.inl ?_, fun hshut => ?_⟩
        · cases t with
          | onConnect =>
              rcases hexp.2 with hc | hc <;> rw [hfailed] at hc <;> cases hc
          | onError e => simp [runTask, onError, hfailed, onConnected, drainWithStatus, push]
          | onGoaway lastStreamId => simp [runTask, hfailed, onGoaway, push]
          | _ => cases ht
        · rw [hfailed] at hshut
          cases hshut
      · have hstay : ({ c with strand := rest }.runTask t o).impl.state = .shutdown := by
          cases t with
          | onConnect => simp [runTask, onConnect, hshut]
          | onError e => simp [runTask, onError, hshut]
          | onGoaway lastStreamId => simp [runTask, hshut]
          | _ => cases ht
        exact ⟨Or.inr hstay, fun _ => hstay⟩

theorem dead_give {c : Channel} (op : ChannelOp) (hd : c.Dead) : (c.give op).1.Dead := by
  unfold Dead
  rw [impl_give]
  exact hd

/-- **A dead channel stays dead**, and a shut down one stays shut down. -/
theorem dead_step {z : Zlib} {c c' : Channel} {e : ChannelEvent} (h : c.Phased) (hd : c.Dead)
    (hstep : step z c e = some c') :
    c'.Dead ∧ (c.impl.state = .shutdown → c'.impl.state = .shutdown) := by
  cases step_move hstep with
  | post op =>
      refine ⟨dead_give op hd, fun hs => ?_⟩
      simp only [enqueue, impl_give]
      exact hs
  | callInline op o hs ho =>
      have hrun := (steady_runTask _ o (c.isSession_give op)).dead (dead_give op hd)
      rw [impl_give] at hrun
      exact hrun
  | runStrand o hstack hs ho => exact dead_runTask h hd hs o
  | @resume f rest o hs ho => exact (steady_runFrame { c with stack := rest } f o).dead hd
  | shutdownStopped hstack => exact (steady_doShutdown c).dead hd
  -- what is left posts a closure or changes a call
  | _ => exact ⟨hd, id⟩

theorem Dead.not_ready {c : Channel} (h : c.Dead) : ¬ c.impl.state = .ready := by
  intro hr
  rcases h with h | h <;> rw [hr] at h <;> cases h

/-- What a dead channel does not do any more: no call gets a stream, and no call enters a map. -/
structure Frozen (c c' : Channel) : Prop where
  dead : c'.Dead
  streams : ∀ (i : CallId) (call' : ChannelCall), c'.calls[i]? = some call' →
    ∀ id, call'.streamId = some id → ∃ call, c.calls[i]? = some call ∧ call.streamId = some id
  unary : ∀ p ∈ c'.impl.activeCalls, p ∈ c.impl.activeCalls
  streaming : ∀ p ∈ c'.impl.activeStreamingCalls, p ∈ c.impl.activeStreamingCalls

/-- **A dead channel submits nothing**, in any run. -/
theorem dead_run {z : Zlib} {c c' : Channel} {es : List ChannelEvent} (h : c.Invariant)
    (hd : c.Dead) (hrun : (machine z).run c es = some c') : Frozen c c' := by
  have hboth := Machine.run_invariant (M := machine z) (I := fun d => d.Invariant ∧ Frozen c d)
    ?_ es c c' ⟨h, hd, fun i call hcall id hid => ⟨call, hcall, hid⟩, fun _ hp => hp,
      fun _ hp => hp⟩ hrun
  · exact hboth.2
  · rintro d e d' ⟨hinv, hfrozen⟩ hstep
    have hadv := step_advance hinv.ledger hstep
    have hready := hfrozen.dead.not_ready
    refine ⟨invariant_step hinv hstep, (dead_step hinv.phased hfrozen.dead hstep).1, ?_, ?_, ?_⟩
    · intro i call' hcall' id hid
      obtain ⟨mid, hmid, hid'⟩ := hadv.opens hready i call' hcall' id hid
      exact hfrozen.streams i mid hmid id hid'
    · intro p hp
      exact hfrozen.unary p (hadv.unary hready p hp)
    · intro p hp
      exact hfrozen.streaming p (hadv.streaming hready p hp)

/-- **`kShutdown` is never left.** -/
theorem shutdown_run {z : Zlib} {c c' : Channel} {es : List ChannelEvent} (h : c.Invariant)
    (hs : c.impl.state = .shutdown) (hrun : (machine z).run c es = some c') :
    c'.impl.state = .shutdown := by
  have hboth := Machine.run_invariant (M := machine z)
    (I := fun d => d.Invariant ∧ d.impl.state = .shutdown) ?_ es c c' ⟨h, hs⟩ hrun
  · exact hboth.2
  · rintro d e d' ⟨hinv, hshut⟩ hstep
    exact ⟨invariant_step hinv hstep, (dead_step hinv.phased (Or.inr hshut) hstep).2 hshut⟩

/-! ## Between two closures -/

/-- Where a call may be between two closures: in a submit closure, in one of the queues, or in one
of the maps. -/
def places (c : Channel) : List CallId :=
  c.strand.flatMap ChannelTask.calls ++ c.impl.pendingCalls ++ c.impl.pendingGenericCalls ++
    c.impl.activeCalls.map Prod.snd ++ c.impl.activeStreamingCalls.map Prod.snd

theorem held_eq_places {c : Channel} (hs : c.stack = []) : c.ledger.held = c.places := by
  simp [Ledger.held, ledger, queued, places, hs]

/-- Between two closures only a connecting channel has something in its queues. -/
theorem Contained.queues {c : Channel} (h : c.Contained) (hs : c.stack = [])
    (hne : c.impl.pendingCalls ≠ [] ∨ c.impl.pendingGenericCalls ≠ [] ∨
      c.impl.connectWaiters ≠ []) : c.impl.state = .connecting := by
  unfold Contained at h
  rw [hs] at h
  rcases hne with hp | hg | hw
  · rcases h.pending hp with hc | ⟨f, hf, _⟩
    · exact hc
    · cases hf
  · rcases h.generic hg with hc | ⟨f, hf, _⟩
    · exact hc
    · cases hf
  · exact h.waiters hw

/-- What the channel guarantees in a reachable state. -/
structure NoCallLost (z : Zlib) (c : Channel) : Prop where
  queues : c.stack = [] → c.impl.pendingCalls ≠ [] ∨ c.impl.pendingGenericCalls ≠ [] ∨
    c.impl.connectWaiters ≠ [] → c.impl.state = .connecting
  ready : c.impl.state = .ready → c.impl.session = true
  shutdown : c.impl.state = .shutdown → ∀ es c', (machine z).run c es = some c' →
    c'.impl.state = .shutdown
  place : c.stack = [] → ∀ (i : CallId) (call : ChannelCall), c.calls[i]? = some call →
    call.settled = false → c.places.count i = 1
  answered : c.impl.state = .shutdown → c.strand = [] → c.stack = [] →
    (∀ call ∈ c.calls, call.drained = true) →
      (∀ w, w < c.waiters → (c.notified.map Prod.fst).count w = 1) ∧
        ∀ call ∈ c.calls, call.Answered

/-- A shut down channel without closures and functions on the strand holds nothing. -/
theorem Contained.empty {c : Channel} (h : c.Contained) (hs : c.impl.state = .shutdown)
    (hstack : c.stack = []) : c.impl.pendingCalls = [] ∧ c.impl.pendingGenericCalls = [] ∧
      c.impl.connectWaiters = [] ∧ c.impl.activeCalls = [] ∧ c.impl.activeStreamingCalls = [] := by
  have hne : ¬ c.impl.state = .connecting := by
    rw [hs]
    simp
  have hempty : ¬ (c.impl.pendingCalls ≠ [] ∨ c.impl.pendingGenericCalls ≠ [] ∨
      c.impl.connectWaiters ≠ []) := fun hq => hne (h.queues hstack hq)
  simp only [ne_eq, not_or, Decidable.not_not] at hempty
  obtain ⟨hp, hg, hw⟩ := hempty
  have hactive : c.impl.activeCalls = [] ∧ c.impl.activeStreamingCalls = [] := by
    rcases Containers.shutdown h hs with ha | hmem
    · exact ha
    · rw [hstack] at hmem
      cases hmem
  exact ⟨hp, hg, hw, hactive.1, hactive.2⟩

/-- **A shut down channel whose posted work is done has answered everything once.** -/
theorem Invariant.answered {c : Channel} (h : c.Invariant) (hshut : c.impl.state = .shutdown)
    (hstrand : c.strand = []) (hstack : c.stack = [])
    (hdrained : ∀ call ∈ c.calls, call.drained = true) :
    (∀ w, w < c.waiters → (c.notified.map Prod.fst).count w = 1) ∧
      ∀ call ∈ c.calls, call.Answered := by
  obtain ⟨hp, hg, hw, ha, hb⟩ := h.phased.contained.empty hshut hstack
  constructor
  · intro w hlt
    have hone := Custody.count_eq_one h.waiters hlt id
    simpa [heldWaiters, hstrand, hstack, hw] using hone
  · intro call hmem
    obtain ⟨i, hcall⟩ := List.mem_iff_getElem?.1 hmem
    have hheld : c.ledger.held = [] := by
      rw [held_eq_places hstack]
      simp [places, hstrand, hp, hg, ha, hb]
    have hset := h.ledger.custody.released_of_nil hheld (List.getElem?_eq_some_iff.1 hcall).1
      call hcall
    have hsound := h.ledger.calls i call hcall
    exact hsound.answered hset (hdrained call hmem) (hsound.not_waiting hset)

/-- **No call is lost by the channel.** In every reachable state the queues hold something only
while connecting, a ready channel has its session, a shut down one stays so, and an unsettled call
is in exactly one place; and a shut down channel whose posted work is done has answered everything
once. -/
theorem no_call_lost {z : Zlib} {configuration : Option Status} {es : List ChannelEvent}
    {c : Channel}
    (hrun : (machine z).run (new configuration) es = some c) : c.NoCallLost z := by
  have h := invariant_reachable hrun
  refine ⟨fun hs => h.phased.contained.queues hs, h.phased.contained.ready,
    fun hs es c' hc' => shutdown_run h hs hc', ?_, ?_⟩
  · intro hs i call hcall hopen
    rw [← held_eq_places hs]
    refine h.ledger.custody.count_eq_one (List.getElem?_eq_some_iff.1 hcall).1 fun hset => ?_
    rw [hset call hcall] at hopen
    cases hopen
  · exact fun hshut hstrand hstack hdrained => h.answered hshut hstrand hstack hdrained

/-- The session takes no part in the step. -/
def noStream : BuildOutcome := .rejected channelFailed

/-- A `Connect` and a unary call wait for the connection, which is established; the call is then
submitted as stream 1, and a bidi call as stream 3. -/
def connectAndSubmit : List ChannelEvent :=
  [.post .connect, .post (.submitCall none), .runStrand noStream, .runStrand noStream,
    .sessionConnected, .runStrand noStream, .resume noStream, .callbackReturns, .resume noStream,
    .resume noStream, .resume (.accepted 1), .resume noStream, .resume noStream, .resume noStream,
    .post (.submitStreaming .bidi none), .runStrand (.accepted 3), .callbackReturns]

/-- The channel is shut down, and all posted work is done. -/
def shutDownAndDrain : List ChannelEvent :=
  [.post .shutdown, .runStrand noStream, .resume noStream, .resume noStream, .resume noStream,
    .resume noStream, .resume noStream, .resume noStream, .unary 0 (.runIoc 0),
    .streaming 1 (.runIoc 0)]

theorem no_call_lost_example :
    ∃ c, (machine Zlib.none).run (new none) (connectAndSubmit ++ shutDownAndDrain) = some c ∧
      c.impl.state = .shutdown ∧ c.strand = [] ∧ c.stack = [] ∧
        (∀ call ∈ c.calls, call.drained = true) ∧ c.NoCallLost Zlib.none :=
  ⟨_, rfl, rfl, rfl, rfl, by decide,
    @no_call_lost Zlib.none none (connectAndSubmit ++ shutDownAndDrain) _ rfl⟩

end Channel

end Rpcpio.Client
