import Rpcpio.Client.ChannelPlaces

/-!
# The phases of a channel

`Containers` says in which states the containers of `ChannelImpl` may hold something, and which
functions on the stack still empty them. `SessionPhase` ties the state to what the session has fired
and to the session's closures on the strand: the closure of `on_connect` comes before those of
`on_error` and `on_goaway`, and it meets a channel that is connecting or shut down.
-/

set_option autoImplicit false

namespace Rpcpio.Client

open Rpcpio.Library Rpcpio.Protocol

/-- The functions that will move `pending_calls_` away. -/
def Frame.drainsCalls : Frame → Bool
  | .drainReady => true
  | .failAll _ => true
  | .shutdownActive => true
  | _ => false

/-- The functions that will move `pending_generic_calls_` away. -/
def Frame.drainsGenericCalls : Frame → Bool
  | .drainGeneric => true
  | f => f.drainsCalls

/-- The containers between two steps. -/
structure Containers (impl : ChannelImpl) (stack : List Frame) : Prop where
  waiters : impl.connectWaiters ≠ [] → impl.state = .connecting
  pending : impl.pendingCalls ≠ [] →
    impl.state = .connecting ∨ ∃ f ∈ stack, f.drainsCalls = true
  generic : impl.pendingGenericCalls ≠ [] →
    impl.state = .connecting ∨ ∃ f ∈ stack, f.drainsGenericCalls = true
  early : impl.state = .idle ∨ impl.state = .connecting →
    impl.activeCalls = [] ∧ impl.activeStreamingCalls = []
  ready : impl.state = .ready → impl.session = true
  shutdown : impl.state = .shutdown →
    (impl.activeCalls = [] ∧ impl.activeStreamingCalls = []) ∨ Frame.shutdownActive ∈ stack

namespace Containers

variable {impl : ChannelImpl} {stack : List Frame}

theorem new : Containers ChannelImpl.new [] :=
  ⟨fun h => absurd rfl h, fun h => absurd rfl h, fun h => absurd rfl h, fun _ => ⟨rfl, rfl⟩,
    (fun h => by cases h), (fun h => by cases h)⟩

/-- More on the stack. -/
theorem push (h : Containers impl stack) (fs : List Frame) : Containers impl (fs ++ stack) := by
  refine ⟨h.waiters, fun hp => ?_, fun hg => ?_, h.early, h.ready, fun hs => ?_⟩
  · rcases h.pending hp with hc | ⟨f, hf, hd⟩
    · exact Or.inl hc
    · exact Or.inr ⟨f, List.mem_append_right _ hf, hd⟩
  · rcases h.generic hg with hc | ⟨f, hf, hd⟩
    · exact Or.inl hc
    · exact Or.inr ⟨f, List.mem_append_right _ hf, hd⟩
  · rcases h.shutdown hs with hc | hf
    · exact Or.inl hc
    · exact Or.inr (List.mem_append_right _ hf)

/-- A frame that empties nothing leaves the stack. -/
theorem pop {f : Frame} (h : Containers impl (f :: stack)) (hf : f.drainsGenericCalls = false) :
    Containers impl stack := by
  have hne : ∀ {g : Frame}, g ∈ f :: stack → g.drainsGenericCalls = true → g ∈ stack := by
    intro g hg hd
    rcases List.mem_cons.1 hg with rfl | hg
    · rw [hf] at hd
      cases hd
    · exact hg
  have hcalls : ∀ {g : Frame}, g.drainsCalls = true → g.drainsGenericCalls = true := by
    intro g hd
    cases g <;> first | exact hd | rfl
  refine ⟨h.waiters, fun hp => ?_, fun hg => ?_, h.early, h.ready, fun hs => ?_⟩
  · rcases h.pending hp with hc | ⟨g, hg, hd⟩
    · exact Or.inl hc
    · exact Or.inr ⟨g, hne hg (hcalls hd), hd⟩
  · rcases h.generic hg with hc | ⟨g, hg, hd⟩
    · exact Or.inl hc
    · exact Or.inr ⟨g, hne hg hd, hd⟩
  · rcases h.shutdown hs with hc | hg
    · exact Or.inl hc
    · exact Or.inr (hne hg rfl)

/-- The connection attempt ends: the callbacks are taken over by a loop, and a function that empties
both queues is on the stack. -/
theorem drain {impl' : ChannelImpl} {fs : List Frame} (h : Containers impl stack)
    (hw : impl'.connectWaiters = []) (ha : impl'.activeCalls = impl.activeCalls)
    (hb : impl'.activeStreamingCalls = impl.activeStreamingCalls)
    (hd : ∃ f ∈ fs, f.drainsCalls = true)
    (hstate : impl'.state = .failed ∨ (impl'.state = .ready ∧ impl'.session = true) ∨
      (impl'.state = .shutdown ∧
        (impl.state = .idle ∨ impl.state = .connecting ∨ Frame.shutdownActive ∈ fs))) :
    Containers impl' (fs ++ stack) := by
  obtain ⟨f, hf, hdrain⟩ := hd
  have hgeneric : f.drainsGenericCalls = true := by
    cases f <;> first | exact hdrain | rfl
  refine ⟨fun hne => absurd hw hne, fun _ => Or.inr ⟨f, List.mem_append_left _ hf, hdrain⟩,
    fun _ => Or.inr ⟨f, List.mem_append_left _ hf, hgeneric⟩, fun he => ?_, fun hr => ?_,
    fun hs => ?_⟩
  · rcases hstate with h1 | ⟨h1, _⟩ | ⟨h1, _⟩ <;> rw [h1] at he <;>
      rcases he with he | he <;> cases he
  · rcases hstate with h1 | ⟨_, hsession⟩ | ⟨h1, _⟩
    · rw [h1] at hr
      cases hr
    · exact hsession
    · rw [h1] at hr
      cases hr
  · rcases hstate with h1 | ⟨h1, _⟩ | ⟨_, hidle | hconnecting | hmem⟩
    · rw [h1] at hs
      cases hs
    · rw [h1] at hs
      cases hs
    · rw [ha, hb]
      exact Or.inl (h.early (Or.inl hidle))
    · rw [ha, hb]
      exact Or.inl (h.early (Or.inr hconnecting))
    · exact Or.inr (List.mem_append_left _ hmem)

end Containers

namespace Channel

/-- The containers of a channel between two steps. -/
def Contained (c : Channel) : Prop := Containers c.impl c.stack

theorem Contained.notify {c : Channel} (h : c.Contained) (w : WaiterId) (s : Status) :
    (c.notify w s).Contained := Containers.push h [.user]

theorem Contained.refuse {c : Channel} (h : c.Contained) (i : CallId) (s : Status) :
    (c.refuse i s).Contained := Containers.push h [.user]

/-- A closure finds the channel idle or connecting, and leaves something in a queue. -/
theorem Contained.startConnecting {c c' : Channel} (h : c.Contained)
    (hstate : c.impl.state = .idle ∨ c.impl.state = .connecting) (hstack : c'.stack = c.stack)
    (hs : c'.impl.state = c.impl.state) (ha : c'.impl.activeCalls = c.impl.activeCalls)
    (hb : c'.impl.activeStreamingCalls = c.impl.activeStreamingCalls) :
    c'.startConnecting.Contained := by
  have hearly := h.early hstate
  simp only [Channel.startConnecting, doConnect]
  split
  · rename_i hidle
    rw [hs] at hidle
    split
    · refine @Containers.drain c.impl c'.stack _ _ ?_ rfl ha hb
        ⟨_, List.mem_cons_of_mem _ List.mem_cons_self, rfl⟩ (Or.inr (Or.inr ⟨rfl, Or.inl hidle⟩))
      rw [hstack]
      exact h
    · refine ⟨fun _ => rfl, fun _ => Or.inl rfl, fun _ => Or.inl rfl, fun _ => ?_, fun hr => ?_,
        fun hr => ?_⟩
      · exact ⟨ha.trans hearly.1, hb.trans hearly.2⟩
      · cases hr
      · cases hr
  · rename_i hidle
    rw [hs] at hidle
    have hconnecting : c'.impl.state = .connecting := hs.trans (hstate.resolve_left hidle)
    refine ⟨fun _ => hconnecting, fun _ => Or.inl hconnecting, fun _ => Or.inl hconnecting,
      fun _ => ⟨ha.trans hearly.1, hb.trans hearly.2⟩, fun hr => ?_, fun hr => ?_⟩
    · rw [hconnecting] at hr
      cases hr
    · rw [hconnecting] at hr
      cases hr

theorem Contained.connect {c : Channel} (h : c.Contained) (w : WaiterId) :
    (c.connect w).Contained := by
  simp only [Channel.connect]
  split
  · exact h.notify w _
  · exact h.notify w _
  · exact h.notify w _
  · rename_i hs
    exact h.startConnecting (Or.inl hs) rfl rfl rfl rfl
  · rename_i hs
    exact h.startConnecting (Or.inr hs) rfl rfl rfl rfl

theorem Contained.build {c : Channel} (h : c.Contained) (hready : c.impl.state = .ready)
    (i : CallId)
    (call : ChannelCall) (o : BuildOutcome) : (c.build i call o).Contained := by
  cases o with
  | invalid s => exact h.refuse i s
  | rejected s => exact Containers.push h (handOver call)
  | accepted id =>
      refine @Containers.push (c.impl.activate call.isUnary id i) c.stack ?_ _
      have hstate : (c.impl.activate call.isUnary id i).state = .ready := by
        cases call.isUnary <;> exact hready
      refine ⟨?_, ?_, ?_, fun he => ?_, ?_, fun hs => ?_⟩
      · cases call.isUnary <;> exact h.waiters
      · cases call.isUnary <;> exact h.pending
      · cases call.isUnary <;> exact h.generic
      · rw [hstate] at he
        rcases he with he | he <;> cases he
      · cases call.isUnary <;> exact h.ready
      · rw [hstate] at hs
        cases hs

theorem Contained.submit {c : Channel} (h : c.Contained) (i : CallId) (o : BuildOutcome) :
    (c.submit i o).Contained := by
  simp only [Channel.submit]
  split
  · exact h
  · rename_i call _
    split
    · exact h.refuse i _
    · split
      · exact h.refuse i _
      · exact h.refuse i _
      · rename_i hs
        exact h.build hs i call o
      · rename_i hs
        cases call.isUnary <;> exact h.startConnecting (Or.inl hs) rfl rfl rfl rfl
      · rename_i hs
        cases call.isUnary <;> exact h.startConnecting (Or.inr hs) rfl rfl rfl rfl

theorem Contained.doShutdown {c : Channel} (h : c.Contained) : c.doShutdown.Contained := by
  simp only [Channel.doShutdown]
  split
  · exact h
  · have hmem : Frame.shutdownActive ∈
        [Frame.notifyWaiters c.impl.connectWaiters channelShutDown, .shutdownActive] := by simp
    exact Containers.drain h rfl rfl rfl ⟨_, hmem, rfl⟩
      (Or.inr (Or.inr ⟨rfl, Or.inr (Or.inr hmem)⟩))

theorem Contained.onConnect {c : Channel} (h : c.Contained) : c.onConnect.Contained := by
  simp only [Channel.onConnect]
  split
  · exact ⟨h.waiters, h.pending, h.generic, h.early, h.ready, h.shutdown⟩
  · exact Containers.drain h rfl rfl rfl ⟨.drainReady, by simp, rfl⟩
      (Or.inr (Or.inl ⟨rfl, rfl⟩))

theorem Contained.onError {c : Channel} (h : c.Contained) (e : SessionError) :
    (c.onError e).Contained := by
  simp only [Channel.onError]
  split
  · exact h
  · exact Containers.push h _
  · exact Containers.drain h rfl rfl rfl ⟨.failAll e.connectionFailed, by simp, rfl⟩ (Or.inl rfl)

theorem Contained.onGoaway {c : Channel} (h : c.Contained) (hs : c.impl.state ≠ .connecting)
    (lastStreamId : StreamId) : (c.onGoaway lastStreamId).Contained := by
  have hw : c.impl.connectWaiters = [] := by
    by_contra hne
    exact hs (h.waiters hne)
  refine ⟨fun hne => absurd hw hne, fun _ => Or.inr ⟨_, List.mem_cons_self, rfl⟩,
    fun _ => Or.inr ⟨_, List.mem_cons_self, rfl⟩, fun he => ?_, fun hr => ?_, fun hr => ?_⟩
  · rcases he with he | he <;> cases he
  · cases hr
  · cases hr

theorem Contained.close {c : Channel} (h : c.Contained) (i : CallId) (errorCode : Nat) :
    (c.close i errorCode).Contained := by
  have herase : ∀ {m : List (StreamId × CallId)} {id : StreamId},
      m = [] → eraseStream m id = [] := by
    intro m id hm
    rw [hm]
    rfl
  simp only [Channel.close]
  split
  · exact h
  · rename_i call _
    split
    · exact h
    · cases call.isUnary with
      | true =>
          exact ⟨h.waiters, h.pending, h.generic,
            fun he => ⟨herase (h.early he).1, (h.early he).2⟩, h.ready,
            fun hs => (h.shutdown hs).imp (fun hm => ⟨herase hm.1, hm.2⟩) id⟩
      | false =>
          exact ⟨h.waiters, h.pending, h.generic,
            fun he => ⟨(h.early he).1, herase (h.early he).2⟩, h.ready,
            fun hs => (h.shutdown hs).imp (fun hm => ⟨hm.1, herase hm.2⟩) id⟩

/-- **A closure on the strand keeps the containers**; a GOAWAY must not meet a connecting
channel. -/
theorem Contained.runTask {c : Channel} (h : c.Contained) (t : ChannelTask) (o : BuildOutcome)
    (hgoaway : ∀ lastStreamId, t = .onGoaway lastStreamId → c.impl.state ≠ .connecting) :
    (c.runTask t o).Contained := by
  cases t with
  | connect w => exact h.connect w
  | submit i => exact h.submit i o
  | shutdown => exact h.doShutdown
  | onConnect => exact h.onConnect
  | onError e => exact h.onError e
  | onGoaway lastStreamId =>
      simp only [Channel.runTask]
      split
      · exact h
      · exact h.onGoaway (hgoaway lastStreamId rfl) lastStreamId
  | close i errorCode => exact h.close i errorCode

/-- **A function on the strand keeps the containers.** -/
theorem Contained.runFrame {c : Channel} {f : Frame} (h : Containers c.impl (f :: c.stack))
    (o : BuildOutcome) : (c.runFrame f o).Contained := by
  cases f with
  | user => exact h.pop rfl
  | notifyWaiters ws s =>
      have hpop : c.Contained := h.pop rfl
      cases ws with
      | nil => exact hpop
      | cons w ws =>
          exact Contained.notify (c := c.push [.notifyWaiters ws s]) (Containers.push hpop _) w s
  | drainReady =>
      -- `pending_calls_` is moved out, and the frame for `pending_generic_calls_` is next
      refine ⟨h.waiters, fun hp => absurd rfl hp,
        fun _ => Or.inr ⟨.drainGeneric, by simp [Channel.runFrame, push], rfl⟩,
        h.early, h.ready, fun hs => ?_⟩
      rcases h.shutdown hs with hc | hmem
      · exact Or.inl hc
      · exact Or.inr (by simpa [Channel.runFrame, push] using hmem)
  | submitCalls ids =>
      have hpop : c.Contained := h.pop rfl
      cases ids with
      | nil => exact hpop
      | cons i ids =>
          exact Contained.submit (c := c.push [.submitCalls ids]) (Containers.push hpop _) i o
  | drainGeneric =>
      -- `pending_generic_calls_` is moved out; who drains `pending_calls_` is still on the stack
      refine ⟨h.waiters, fun hp => ?_, fun hg => absurd rfl hg, h.early, h.ready, fun hs => ?_⟩
      · rcases h.pending hp with hc | ⟨g, hg, hd⟩
        · exact Or.inl hc
        · rcases List.mem_cons.1 hg with rfl | hg
          · cases hd
          · exact Or.inr ⟨g, List.mem_append_right _ hg, hd⟩
      · rcases h.shutdown hs with hc | hmem
        · exact Or.inl hc
        · exact Or.inr (by simpa [Channel.runFrame, push] using hmem)
  | runGeneric ids =>
      have hpop : c.Contained := h.pop rfl
      cases ids with
      | nil => exact hpop
      | cons i ids =>
          exact Contained.submit (c := c.push [.runGeneric ids]) (Containers.push hpop _) i o
  | failAll s =>
      refine ⟨h.waiters, fun hp => absurd rfl hp,
        fun _ => Or.inr ⟨.drainGeneric, by simp [Channel.runFrame, push], rfl⟩,
        h.early, h.ready, fun hs => ?_⟩
      rcases h.shutdown hs with hc | hmem
      · exact Or.inl hc
      · exact Or.inr (by simpa [Channel.runFrame, push] using hmem)
  | completePending ids s =>
      have hpop : c.Contained := h.pop rfl
      cases ids with
      | nil => exact hpop
      | cons i ids =>
          exact Contained.refuse (c := c.push [.completePending ids s]) (Containers.push hpop _) i s
  | shutdownActive =>
      -- the active maps are empty, and both queues wait for `FailAll`
      refine ⟨h.waiters,
        fun _ => Or.inr
          ⟨.failAll channelShutDown, by simp [Channel.runFrame, failActive, push], rfl⟩,
        fun _ => Or.inr
          ⟨.failAll channelShutDown, by simp [Channel.runFrame, failActive, push], rfl⟩,
        fun _ => ⟨rfl, rfl⟩, h.ready, fun _ => Or.inl ⟨rfl, rfl⟩⟩

end Channel

/-! ## What the session has fired -/

/-- The closures of the session's callbacks. -/
def ChannelTask.isSession : ChannelTask → Bool
  | .onConnect => true
  | .onError _ => true
  | .onGoaway _ => true
  | _ => false

namespace Channel

/-- What a closure of the session says about the session and the channel that it will meet. -/
def Expected (c : Channel) : ChannelTask → Prop
  | .onConnect => c.connectFired = true ∧ (c.impl.state = .connecting ∨ c.impl.state = .shutdown)
  | .onError _ => c.errorFired = true
  | .onGoaway _ => c.connectFired = true
  | _ => True

/-- The session between two steps of the channel. -/
structure SessionPhase (c : Channel) : Prop where
  idle : c.impl.state = .idle →
    c.callbacks = false ∧ c.connectFired = false ∧ c.errorFired = false
  armed : c.callbacks = true → c.connectFired = false → c.errorFired = false →
    c.impl.state = .connecting ∨ c.impl.state = .shutdown
  fired : c.connectFired = true →
    ChannelTask.onConnect ∈ c.strand ∨ (c.impl.state ≠ .idle ∧ c.impl.state ≠ .connecting)
  tasks : ∀ t ∈ c.strand, c.Expected t
  order : c.strand.Pairwise fun a b => b = .onConnect → a.isSession = false

theorem sessionPhase_new (configuration : Option Status) : (new configuration).SessionPhase :=
  ⟨fun _ => ⟨rfl, rfl, rfl⟩, (fun h => by cases h), (fun h => by cases h), by simp [new],
    List.Pairwise.nil⟩

/-- What the functions on the strand do to the state, those of `on_connect`, `on_error` and
`on_goaway` apart: nothing, the first `Connect` or `Submit`, or a shutdown. -/
def Steady (c c' : Channel) : Prop :=
  (c'.impl.state = c.impl.state ∧ c'.callbacks = c.callbacks) ∨
    (c.impl.state = .idle ∧ c'.impl.state = .connecting) ∨
      (c'.impl.state = .shutdown ∧ (c'.callbacks = true → c.callbacks = true))

theorem steady_startConnecting (c : Channel) : Steady c c.startConnecting := by
  simp only [startConnecting, doConnect]
  split
  · rename_i hidle
    split
    · exact Or.inr (Or.inr ⟨rfl, fun h => h⟩)
    · exact Or.inr (Or.inl ⟨hidle, rfl⟩)
  · exact Or.inl ⟨rfl, rfl⟩

theorem steady_doShutdown (c : Channel) : Steady c c.doShutdown := by
  simp only [doShutdown]
  split
  · exact Or.inl ⟨rfl, rfl⟩
  · refine Or.inr (Or.inr ⟨rfl, fun h => ?_⟩)
    exact (Bool.and_eq_true_iff.1 h).1

theorem steady_submit (c : Channel) (i : CallId) (o : BuildOutcome) : Steady c (c.submit i o) := by
  unfold submit
  split
  · exact Or.inl ⟨rfl, rfl⟩
  · rename_i call _
    split
    · exact Or.inl ⟨rfl, rfl⟩
    · split
      · exact Or.inl ⟨rfl, rfl⟩
      · exact Or.inl ⟨rfl, rfl⟩
      · cases o <;> cases hkind : call.isUnary <;>
          simp [Steady, build, refuse, modify, push, ChannelImpl.activate, hkind]
      · cases call.isUnary <;> exact steady_startConnecting _
      · cases call.isUnary <;> exact steady_startConnecting _

theorem steady_runTask (c : Channel) {t : ChannelTask} (o : BuildOutcome)
    (ht : t.isSession = false) : Steady c (c.runTask t o) := by
  cases t with
  | connect w =>
      simp only [runTask, connect]
      split
      · exact Or.inl ⟨rfl, rfl⟩
      · exact Or.inl ⟨rfl, rfl⟩
      · exact Or.inl ⟨rfl, rfl⟩
      · exact steady_startConnecting _
      · exact steady_startConnecting _
  | submit i => exact steady_submit c i o
  | shutdown => exact steady_doShutdown c
  | close i errorCode =>
      simp only [runTask, close]
      split
      · exact Or.inl ⟨rfl, rfl⟩
      · rename_i call _
        split
        · exact Or.inl ⟨rfl, rfl⟩
        · cases call.isUnary <;> exact Or.inl ⟨rfl, rfl⟩
  | _ => cases ht

theorem steady_runFrame (c : Channel) (f : Frame) (o : BuildOutcome) :
    Steady c (c.runFrame f o) := by
  cases f with
  | notifyWaiters ws s => cases ws <;> exact Or.inl ⟨rfl, rfl⟩
  | submitCalls ids =>
      cases ids with
      | nil => exact Or.inl ⟨rfl, rfl⟩
      | cons i ids => exact steady_submit (c.push [.submitCalls ids]) i o
  | runGeneric ids =>
      cases ids with
      | nil => exact Or.inl ⟨rfl, rfl⟩
      | cons i ids => exact steady_submit (c.push [.runGeneric ids]) i o
  | completePending ids s => cases ids <;> exact Or.inl ⟨rfl, rfl⟩
  | _ => exact Or.inl ⟨rfl, rfl⟩

/-- **The session's phase is kept** by functions that leave the strand and the session alone. -/
theorem SessionPhase.steady {c c' : Channel} (h : c.SessionPhase) (hs : Steady c c')
    (hout : c'.outside = c.outside) : c'.SessionPhase := by
  simp only [outside, Prod.mk.injEq] at hout
  obtain ⟨hstrand, _, hconnect, herror⟩ := hout
  have htasks : (∀ t ∈ c.strand, c.Expected t → c'.Expected t) →
      ∀ t ∈ c'.strand, c'.Expected t := by
    intro hmap t ht
    rw [hstrand] at ht
    exact hmap t ht (h.tasks t ht)
  have horder : c'.strand.Pairwise fun a b => b = .onConnect → a.isSession = false := by
    rw [hstrand]
    exact h.order
  -- the phase is the same, or the channel starts to connect, or it shuts down
  rcases hs with ⟨hstate, hcallbacks⟩ | ⟨hidle, hconnecting⟩ | ⟨hshutdown, hcallbacks⟩
  · refine ⟨?_, ?_, ?_, htasks fun t _ he => ?_, horder⟩
    · rw [hstate, hcallbacks, hconnect, herror]
      exact h.idle
    · rw [hstate, hcallbacks, hconnect, herror]
      exact h.armed
    · rw [hstate, hconnect, hstrand]
      exact h.fired
    · cases t <;> simp only [Expected, hstate, hconnect, herror] at he ⊢ <;> exact he
  · obtain ⟨_, hc, he⟩ := h.idle hidle
    refine ⟨fun hi => ?_, fun _ _ _ => Or.inl hconnecting, fun hf => ?_, htasks fun t ht hexp => ?_,
      horder⟩
    · rw [hconnecting] at hi
      cases hi
    · rw [hconnect, hc] at hf
      cases hf
    · cases t <;> simp only [Expected, hconnect, herror, hc, he] at hexp ⊢
      · exact absurd hexp.1 (by simp)
      · exact hexp
      · exact hexp
  · refine ⟨fun hi => ?_, fun _ _ _ => Or.inr hshutdown, fun _ => Or.inr ?_,
      htasks fun t ht hexp => ?_,
      horder⟩
    · rw [hshutdown] at hi
      cases hi
    · rw [hshutdown]
      exact ⟨by simp, by simp⟩
    · cases t <;> simp only [Expected, hconnect, herror, hshutdown] at hexp ⊢
      · exact ⟨hexp.1, Or.inr trivial⟩
      · exact hexp
      · exact hexp

/-- What changes nothing that the phase depends on. -/
theorem SessionPhase.congr {c c' : Channel} (h : c.SessionPhase)
    (hstate : c'.impl.state = c.impl.state) (hcallbacks : c'.callbacks = c.callbacks)
    (hout : c'.outside = c.outside) : c'.SessionPhase :=
  h.steady (Or.inl ⟨hstate, hcallbacks⟩) hout

/-- Behind a closure of the session there is no closure of `on_connect`. -/
theorem SessionPhase.onConnect_notMem {c : Channel} {t : ChannelTask} {rest : List ChannelTask}
    (h : c.SessionPhase) (hs : c.strand = t :: rest) (ht : t.isSession = true) :
    ChannelTask.onConnect ∉ rest := by
  intro hmem
  have horder := h.order
  rw [hs, List.pairwise_cons] at horder
  rw [horder.1 _ hmem rfl] at ht
  cases ht

/-- A GOAWAY meets a channel that has left `kConnecting`. -/
theorem SessionPhase.goaway_state {c : Channel} {lastStreamId : StreamId} {rest : List ChannelTask}
    (h : c.SessionPhase) (hs : c.strand = .onGoaway lastStreamId :: rest) :
    c.impl.state ≠ .connecting := by
  have hexp : c.Expected (.onGoaway lastStreamId) :=
    h.tasks _ (by rw [hs]; exact List.mem_cons_self)
  rcases h.fired hexp with hmem | ⟨_, hne⟩
  · rw [hs] at hmem
    rcases List.mem_cons.1 hmem with heq | hmem
    · cases heq
    · exact absurd hmem (h.onConnect_notMem hs rfl)
  · exact hne

/-- After a closure of the session the channel is neither idle nor connecting. -/
theorem state_runTask_session (c : Channel) {t : ChannelTask} (o : BuildOutcome)
    (ht : t.isSession = true) :
    (c.runTask t o).impl.state ≠ .idle ∧ (c.runTask t o).impl.state ≠ .connecting := by
  cases t with
  | onConnect =>
      simp only [runTask, onConnect]
      split
      · rename_i hs
        simp [hs]
      · simp [onConnected, push]
  | onError e =>
      simp only [runTask, onError]
      split
      · rename_i hs
        simp [hs]
      · rename_i hs
        simp [push, hs]
      · simp [onConnected, drainWithStatus, push]
  | onGoaway lastStreamId =>
      simp only [runTask]
      split
      · rename_i hs
        simp [hs]
      · simp [onGoaway, push]
  | _ => cases ht

/-- **The session's phase is kept** by a closure that leaves the strand. -/
theorem SessionPhase.runTask {c : Channel} {t : ChannelTask} {rest : List ChannelTask}
    (h : c.SessionPhase) (hs : c.strand = t :: rest) (o : BuildOutcome) :
    ({ c with strand := rest }.runTask t o).SessionPhase := by
  have hout := outside_runTask { c with strand := rest } t o
  have horder := h.order
  rw [hs, List.pairwise_cons] at horder
  have hmem : ∀ u ∈ rest, c.Expected u := fun u hu =>
    h.tasks u (by rw [hs]; exact List.mem_cons_of_mem _ hu)
  cases ht : t.isSession with
  | false =>
      -- a closure of the application moves neither the session nor the order of its closures
      have hphase : SessionPhase { c with strand := rest } := by
        refine ⟨h.idle, h.armed, fun hf => ?_, hmem, horder.2⟩
        refine (h.fired hf).imp_left ?_
        intro hin
        rw [hs] at hin
        rcases List.mem_cons.1 hin with rfl | hin
        · cases ht
        · exact hin
      exact hphase.steady (steady_runTask _ o ht) hout
  | true =>
      -- a closure of the session: no `OnConnect` is queued behind it
      have hnone := h.onConnect_notMem hs ht
      have hexp : c.Expected t := h.tasks t (by rw [hs]; exact List.mem_cons_self)
      have hflag : c.connectFired = true ∨ c.errorFired = true := by
        cases t with
        | onConnect => exact Or.inl hexp.1
        | onError e => exact Or.inr hexp
        | onGoaway lastStreamId => exact Or.inl hexp
        | _ => cases ht
      obtain ⟨hidle, hconnecting⟩ := state_runTask_session { c with strand := rest } o ht
      simp only [outside, Prod.mk.injEq] at hout
      obtain ⟨hstrand, _, hconnect, herror⟩ := hout
      refine ⟨fun hi => absurd hi hidle, fun _ hc he => ?_,
        fun _ => Or.inr ⟨hidle, hconnecting⟩, ?_,
        by rw [hstrand]; exact horder.2⟩
      · rw [hconnect] at hc
        rw [herror] at he
        rcases hflag with hf | hf
        · rw [hf] at hc
          cases hc
        · rw [hf] at he
          cases he
      · intro u hu
        rw [hstrand] at hu
        have hold := hmem u hu
        cases u with
        | onConnect => exact absurd hu hnone
        | onError e => exact herror.trans hold
        | onGoaway lastStreamId => exact hconnect.trans hold
        | _ => trivial

/-- A closure that is not the session's is posted. -/
theorem SessionPhase.enqueue {c : Channel} (h : c.SessionPhase) {t : ChannelTask}
    (ht : t.isSession = false) : (c.enqueue t).SessionPhase := by
  refine ⟨h.idle, h.armed, fun hf => ?_, fun u hu => ?_, ?_⟩
  · exact (h.fired hf).imp_left fun hin => List.mem_append_left _ hin
  · rcases List.mem_append.1 hu with hu | hu
    · exact h.tasks u hu
    · rw [List.mem_singleton.1 hu]
      cases t <;> trivial
  · refine List.pairwise_append.2 ⟨h.order, List.pairwise_singleton _ _, fun a _ b hb hbc => ?_⟩
    rw [List.mem_singleton.1 hb] at hbc
    subst hbc
    cases ht

/-- `on_connect` is invoked: nothing else of the session is on the strand yet. -/
theorem SessionPhase.connected {c : Channel} (h : c.SessionPhase) (hcb : c.callbacks = true)
    (hc : c.connectFired = false) (he : c.errorFired = false) :
    ({ c with connectFired := true }.enqueue .onConnect).SessionPhase := by
  have hquiet : ∀ u ∈ c.strand, u.isSession = false := by
    intro u hu
    have hexp := h.tasks u hu
    cases u with
    | onConnect => exact absurd (hc.symm.trans hexp.1) (by simp)
    | onError e => exact absurd (he.symm.trans hexp) (by simp)
    | onGoaway lastStreamId => exact absurd (hc.symm.trans hexp) (by simp)
    | _ => rfl
  refine ⟨fun hi => ?_, fun _ hf => ?_, fun _ => Or.inl (List.mem_append_right _ (by simp)),
    fun u hu => ?_, ?_⟩
  · exact absurd (hcb.symm.trans (h.idle hi).1) (by simp)
  · cases hf
  · rcases List.mem_append.1 hu with hu | hu
    · have hq := hquiet u hu
      cases u <;> trivial
    · rw [List.mem_singleton.1 hu]
      exact ⟨rfl, h.armed hcb hc he⟩
  · exact List.pairwise_append.2
      ⟨h.order, List.pairwise_singleton _ _, fun a ha _ _ _ => hquiet a ha⟩

/-- `on_error` is invoked. -/
theorem SessionPhase.errored {c : Channel} (h : c.SessionPhase) (hcb : c.callbacks = true)
    (e : SessionError) : ({ c with errorFired := true }.enqueue (.onError e)).SessionPhase := by
  refine ⟨fun hi => ?_, fun _ _ hf => ?_, fun hf => ?_, fun u hu => ?_, ?_⟩
  · exact absurd (hcb.symm.trans (h.idle hi).1) (by simp)
  · cases hf
  · exact (h.fired hf).imp_left fun hin => List.mem_append_left _ hin
  · rcases List.mem_append.1 hu with hu | hu
    · have hexp := h.tasks u hu
      cases u <;> first | exact hexp | rfl
    · rw [List.mem_singleton.1 hu]
      rfl
  · refine List.pairwise_append.2 ⟨h.order, List.pairwise_singleton _ _, fun a _ b hb hbc => ?_⟩
    rw [List.mem_singleton.1 hb] at hbc
    cases hbc

/-- `on_goaway` is invoked. -/
theorem SessionPhase.goaway {c : Channel} (h : c.SessionPhase) (hc : c.connectFired = true)
    (lastStreamId : StreamId) : (c.enqueue (.onGoaway lastStreamId)).SessionPhase := by
  refine ⟨h.idle, h.armed, fun hf => ?_, fun u hu => ?_, ?_⟩
  · exact (h.fired hf).imp_left fun hin => List.mem_append_left _ hin
  · rcases List.mem_append.1 hu with hu | hu
    · exact h.tasks u hu
    · rw [List.mem_singleton.1 hu]
      exact hc
  · refine List.pairwise_append.2 ⟨h.order, List.pairwise_singleton _ _, fun a _ b hb hbc => ?_⟩
    rw [List.mem_singleton.1 hb] at hbc
    cases hbc

/-- The phases of a channel between two steps. -/
structure Phased (c : Channel) : Prop where
  contained : c.Contained
  session : c.SessionPhase

theorem phased_new (configuration : Option Status) : (new configuration).Phased :=
  ⟨Containers.new, sessionPhase_new configuration⟩

theorem isSession_give (c : Channel) (op : ChannelOp) : (c.give op).2.isSession = false := by
  cases op <;> rfl

theorem Phased.give {c : Channel} (h : c.Phased) (op : ChannelOp) : (c.give op).1.Phased := by
  obtain ⟨hc, hs⟩ := h
  cases op <;> exact ⟨hc, ⟨hs.idle, hs.armed, hs.fired, hs.tasks, hs.order⟩⟩

/-- **Every event keeps the phases.** -/
theorem step_phased {z : Zlib} {c c' : Channel} {e : ChannelEvent} (h : c.Phased)
    (hstep : step z c e = some c') : c'.Phased := by
  cases step_move hstep with
  | post op =>
      have hgive := h.give op
      exact ⟨hgive.contained, hgive.session.enqueue (c.isSession_give op)⟩
  | callInline op o hs ho =>
      have hgive := h.give op
      have hquiet := c.isSession_give op
      refine ⟨hgive.contained.runTask _ o fun last hlast => ?_,
        hgive.session.steady (steady_runTask _ o hquiet) (outside_runTask _ _ o)⟩
      rw [hlast] at hquiet
      cases hquiet
  | @callbackReturns rest hs =>
      have hc : Containers c.impl (.user :: rest) := hs ▸ h.contained
      exact ⟨hc.pop rfl, h.session.congr rfl rfl rfl⟩
  | @runStrand t rest o hstack hs ho =>
      refine ⟨Contained.runTask (c := { c with strand := rest }) h.contained t o
        fun last hlast => ?_,
        h.session.runTask hs o⟩
      -- the closure of a GOAWAY runs on a connected channel only
      rw [hlast] at hs
      exact h.session.goaway_state hs
  | @resume f rest o hs ho =>
      have hc : Containers c.impl (f :: rest) := hs ▸ h.contained
      exact ⟨Contained.runFrame (c := { c with stack := rest }) hc o,
        h.session.steady (steady_runFrame { c with stack := rest } f o)
          (outside_runFrame { c with stack := rest } f o)⟩
  | shutdownStopped hstack =>
      exact ⟨h.contained.doShutdown, h.session.steady (steady_doShutdown c) (outside_doShutdown c)⟩
  | sessionConnected hcallbacks hconnect herror =>
      exact ⟨h.contained, h.session.connected hcallbacks hconnect herror⟩
  | sessionError e hcallbacks => exact ⟨h.contained, h.session.errored hcallbacks e⟩
  | sessionGoaway lastStreamId hcallbacks hconnect =>
      exact ⟨h.contained, h.session.goaway hconnect lastStreamId⟩
  | streamClosed errorCode hcall hid => exact ⟨h.contained, h.session.enqueue rfl⟩
  | unary hcall he => exact ⟨h.contained, h.session.congr rfl rfl rfl⟩
  | streaming hmay hcall he => exact ⟨h.contained, h.session.congr rfl rfl rfl⟩
  | cancelControl hcall => exact ⟨h.contained, h.session.congr rfl rfl rfl⟩

end Channel

end Rpcpio.Client
