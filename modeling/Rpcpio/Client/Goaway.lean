import Rpcpio.Client.ChannelInvariant

/-!
# GOAWAY

`OnGoaway` splits both maps at the last stream id that the peer has processed. The calls above it
are failed and leave their maps; the calls at or below it are not touched, and complete later
through their own trailers or close. The channel has failed for good, so nothing is submitted on it
any more, whatever closures are still on the strand.
-/

set_option autoImplicit false

namespace Rpcpio.Client

open Rpcpio.Library Rpcpio.Protocol

namespace ChannelCall

/-- The call has completed with the outcome of its trailers. -/
def CompletedByTrailers (z : Zlib) (trailers : HeaderMap) : ChannelCall → ChannelCall → Prop
  | .unary u, .unary u' =>
      ∃ r, u.completion.call.trailersResult z trailers = some r ∧ u'.completion.gate.Decided r
  | .streaming t, .streaming t' =>
      t'.state = t.state.maybeDeliverStatus (extractTrailerStatus trailers)
  | _, _ => False

/-- The call has completed with the outcome of its close. -/
def CompletedByClose (errorCode : Nat) : ChannelCall → Prop
  | .unary u => u.completion.gate.Decided (UnaryResultRaw.of (closeStatus errorCode))
  | .streaming t => t.state.closed = true ∧ IocTask.streamClosed errorCode false ∈ t.ioc

/-- The event by which the trailers of a call reach it. -/
def trailersEvent (call : ChannelCall) (i : CallId) (trailers : HeaderMap) : ChannelEvent :=
  if call.isUnary then .unary i (.trailers trailers) else .streaming i (.trailers trailers)

variable {c : ChannelCall}

/-- Trailers complete an open call of a stream. -/
theorem Sound.completedByTrailers {z : Zlib} (h : c.Sound) (hopen : c.settled = false)
    {id : StreamId} (hid : c.streamId = some id) (trailers : HeaderMap) :
    ∃ c', (if c.isUnary then c.stepUnary z (.trailers trailers)
      else c.stepStreaming (.trailers trailers)) = some c' ∧
        CompletedByTrailers z trailers c c' := by
  have hsome : c.streamId.isSome = true := by
    rw [hid]
    rfl
  cases c with
  | unary u =>
      obtain ⟨_, hc⟩ := Bool.or_eq_false_iff.1 hopen
      obtain ⟨r, hr⟩ := UnaryCompletion.trailersResult_isSome (z := z) hc trailers
      have hstep : u.completion.step z (.trailers trailers) =
        some (u.completion.after (u.completion.call.onTrailers z trailers)) := rfl
      have hgate := UnaryCompletion.step_gate hstep
      have hmove : u.completion.gateMove z (.trailers trailers) = .post r := by
        simp only [UnaryCompletion.gateMove]
        rw [show u.completion.outcome z (.trailers trailers) = some r from hr]
      rw [hmove] at hgate
      have hu : u.streamId.isSome = true := hsome
      refine ⟨.unary { u with
        completion := u.completion.after (u.completion.call.onTrailers z trailers) }, ?_, r, hr,
        Gate.decided_post hc (SubmittedUnary.Sound.gate h).once hgate⟩
      simp [isUnary, ChannelCall.stepUnary, SubmittedUnary.step, hu, hstep]
  | streaming t =>
      obtain ⟨hc, _⟩ := Bool.or_eq_false_iff.1 hopen
      have ht : t.streamId.isSome = true := hsome
      refine ⟨.streaming { t with state := t.state.onTrailers trailers }, ?_, ?_⟩
      · simp [isUnary, ChannelCall.stepStreaming, SubmittedStreaming.step, ht]
      · simp [CompletedByTrailers, StreamingCallState.onTrailers, hc]

/-- A close completes an open call. -/
theorem Sound.completedByClose (h : c.Sound) (hopen : c.settled = false) (errorCode : Nat) :
    (c.close errorCode).CompletedByClose errorCode := by
  cases c with
  | unary u =>
      obtain ⟨_, hc⟩ := Bool.or_eq_false_iff.1 hopen
      have hgate := (SubmittedUnary.Sound.gate h)
      have htrailers : u.completion.call.trailersDone = false := by
        by_contra ht
        rw [hgate.trailers (by simpa using ht)] at hc
        cases hc
      have hr : u.completion.call.closeResult errorCode =
          some (UnaryResultRaw.of (closeStatus errorCode)) := by
        simp [ClientCallState.closeResult, hc, htrailers]
      have hstep : u.completion.step Zlib.none (.close errorCode) =
        some (u.completion.after (u.completion.call.onStreamClose errorCode)) := rfl
      have hmove := UnaryCompletion.step_gate hstep
      rw [show u.completion.gateMove Zlib.none (.close errorCode) =
          .post (UnaryResultRaw.of (closeStatus errorCode)) by
        simp only [UnaryCompletion.gateMove]
        rw [show u.completion.outcome Zlib.none (.close errorCode) = _ from hr]] at hmove
      exact Gate.decided_post hc hgate.once hmove
  | streaming t =>
      obtain ⟨hc, ht⟩ := Bool.or_eq_false_iff.1 hopen
      constructor
      · simp [SubmittedStreaming.close, SubmittedStreaming.after, StreamingCallState.onStreamClose,
          hc]
      · simp [SubmittedStreaming.close, SubmittedStreaming.after, StreamingCallState.onStreamClose,
          hc, ht]

end ChannelCall

namespace Channel

/-- A call that has not completed is still in its map, its trailers complete it, its stream may
close, and the closure of its close completes it and removes it from its map. -/
structure CanComplete (z : Zlib) (d : Channel) (p : StreamId × CallId) (call : ChannelCall) :
    Prop where
  active : p ∈ d.impl.activeCalls ++ d.impl.activeStreamingCalls
  trailers : ∀ h, ∃ d' call', step z d (call.trailersEvent p.2 h) = some d' ∧
    d'.calls[p.2]? = some call' ∧ call.CompletedByTrailers z h call'
  closes : ∀ errorCode, step z d (.streamClosed p.2 errorCode) =
    some (d.enqueue (.close p.2 errorCode))
  close : ∀ errorCode rest o d', d.strand = .close p.2 errorCode :: rest →
    step z d (.runStrand o) = some d' →
      d'.calls[p.2]? = some (call.close errorCode) ∧
        (call.close errorCode).CompletedByClose errorCode ∧
          p ∉ d'.impl.activeCalls ++ d'.impl.activeStreamingCalls

/-- What the closure of `on_goaway` does to a channel `c`, which it leaves as `c'`. -/
structure GoawayPartition (z : Zlib) (lastStreamId : StreamId) (c c' : Channel) : Prop where
  failed : c'.impl.state = .failed
  unary : c'.impl.activeCalls = c.impl.activeCalls.filter fun p => decide (p.1 ≤ lastStreamId)
  streaming : c'.impl.activeStreamingCalls =
    c.impl.activeStreamingCalls.filter fun p => decide (p.1 ≤ lastStreamId)
  above : ∀ p ∈ c.impl.activeCalls ++ c.impl.activeStreamingCalls, lastStreamId < p.1 →
    ∃ call, c.calls[p.2]? = some call ∧
      c'.calls[p.2]? = some (call.fail (goawayStatus lastStreamId)) ∧
        (call.settled = false →
          (call.fail (goawayStatus lastStreamId)).FailedWith (goawayStatus lastStreamId))
  untouched : ∀ i, (∀ p ∈ c.impl.activeCalls ++ c.impl.activeStreamingCalls, p.2 = i →
    p.1 ≤ lastStreamId) → c'.calls[i]? = c.calls[i]?
  completes : ∀ es d, (machine z).run c' es = some d →
    ∀ p ∈ c'.impl.activeCalls ++ c'.impl.activeStreamingCalls, ∀ call, d.calls[p.2]? = some call →
      call.settled = false → CanComplete z d p call
  frozen : ∀ es d, (machine z).run c' es = some d → Frozen c' d
  queues : ∀ es d, (machine z).run c' es = some d → d.stack = [] →
    d.impl.pendingCalls = [] ∧ d.impl.pendingGenericCalls = [] ∧
      ∀ (i : CallId) (call : ChannelCall), d.calls[i]? = some call → call.streamId = none →
        call.settled = false → i ∈ d.strand.flatMap ChannelTask.calls
  refused : ∀ es d, (machine z).run c' es = some d → ∀ i rest o d', d.strand = .submit i :: rest →
    step z d (.runStrand o) = some d' → ∃ call s, d.calls[i]? = some call ∧
      d'.calls[i]? = some (call.refuse s) ∧
        (s = callCancelled ∨ s = channelFailed ∨ s = d.impl.shutdownStatus)

/-- An open call of a stream is in a map, under its stream id. -/
theorem Invariant.active_of_open {d : Channel} (h : d.Invariant) {i : CallId} {call : ChannelCall}
    {id : StreamId} (hcall : d.calls[i]? = some call) (hid : call.streamId = some id)
    (hopen : call.settled = false) :
    (id, i) ∈ d.impl.activeCalls ++ d.impl.activeStreamingCalls := by
  have hlt : i < d.calls.length := (List.getElem?_eq_some_iff.1 hcall).1
  rcases h.ledger.custody.covered i hlt with hheld | hset
  · rcases List.mem_append.1 hheld with hq | hactive
    · -- a queued call has no stream
      rw [(h.ledger.waiting i hq call hcall).streamId_eq_none (h.ledger.calls i call hcall)] at hid
      cases hid
    · obtain ⟨p, hp, hpi⟩ := List.mem_map.1 hactive
      have hkey := (h.ledger.key_iff hcall hid hp).2 hpi
      rw [← hkey, ← hpi]
      exact hp
  · rw [hset call hcall] at hopen
    cases hopen

/-- **An open call of a stream can complete** through its own trailers or close. -/
theorem Invariant.canComplete {z : Zlib} {d : Channel} (h : d.Invariant) {p : StreamId × CallId}
    {call : ChannelCall} (hcall : d.calls[p.2]? = some call) (hid : call.streamId = some p.1)
    (hopen : call.settled = false) : CanComplete z d p call := by
  have hlt : p.2 < d.calls.length := (List.getElem?_eq_some_iff.1 hcall).1
  have hsound := h.ledger.calls p.2 call hcall
  refine ⟨h.active_of_open hcall hid hopen, fun trailers => ?_, fun errorCode => ?_, ?_⟩
  · obtain ⟨call', hstep, hdone⟩ := hsound.completedByTrailers (z := z) hopen hid trailers
    refine ⟨{ d with calls := d.calls.set p.2 call' }, call', ?_, List.getElem?_set_self hlt, hdone⟩
    cases hkind : call.isUnary with
    | true =>
        rw [hkind, if_pos rfl] at hstep
        simp [ChannelCall.trailersEvent, hkind, step, onCall, hcall, hstep]
    | false =>
        simp only [hkind, Bool.false_eq_true, if_false] at hstep
        simp [ChannelCall.trailersEvent, hkind, step, mayCancel, onCall, hcall, hstep]
  · simp [step, hcall, hid]
  · intro errorCode rest o d' hs hstep
    have hd' : d' = { d with strand := rest }.close p.2 errorCode := runStrand_eq hs hstep
    have hclose : d' = { d with
        strand := rest
        impl := d.impl.removeActive call.isUnary p.1
        calls := d.calls.modify p.2 (ChannelCall.close errorCode) } := by
      rw [hd']
      simp only [close, hcall, hid]
      rfl
    refine ⟨?_, hsound.completedByClose hopen errorCode, fun hmem => ?_⟩
    · rw [hclose]
      simp [hcall]
    · rw [hclose] at hmem
      have herase : ∀ m : List (StreamId × CallId), p ∉ eraseStream m p.1 := by
        intro m hm
        simpa using (List.mem_filter.1 hm).2
      cases hkind : call.isUnary with
      | true =>
          rw [hkind] at hmem
          rcases List.mem_append.1 hmem with hm | hm
          · exact herase _ hm
          · have hother := (h.ledger.streaming p hm call hcall).1
            rw [hkind] at hother
            cases hother
      | false =>
          rw [hkind] at hmem
          rcases List.mem_append.1 hmem with hm | hm
          · have hother := (h.ledger.unary p hm call hcall).1
            rw [hkind] at hother
            cases hother
          · exact herase _ hm

/-- On a dead channel a call without a stream is answered, or waits in its submit closure. -/
theorem Invariant.queues_of_dead {d : Channel} (h : d.Invariant) (hdead : d.Dead)
    (hs : d.stack = []) : d.impl.pendingCalls = [] ∧ d.impl.pendingGenericCalls = [] ∧
      ∀ (i : CallId) (call : ChannelCall), d.calls[i]? = some call → call.streamId = none →
        call.settled = false → i ∈ d.strand.flatMap ChannelTask.calls := by
  have hne : ¬ d.impl.state = .connecting := by
    intro hc
    rcases hdead with hd | hd <;> rw [hc] at hd <;> cases hd
  have hempty : ¬ (d.impl.pendingCalls ≠ [] ∨ d.impl.pendingGenericCalls ≠ [] ∨
      d.impl.connectWaiters ≠ []) := fun hq => hne (h.phased.contained.queues hs hq)
  simp only [ne_eq, not_or, Decidable.not_not] at hempty
  obtain ⟨hp, hg, _⟩ := hempty
  refine ⟨hp, hg, fun i call hcall hid hopen => ?_⟩
  rcases h.ledger.custody.covered i (List.getElem?_eq_some_iff.1 hcall).1 with hheld | hset
  · rcases List.mem_append.1 hheld with hq | hactive
    · have hq' : i ∈ d.queued := hq
      simpa [queued, hs, hp, hg] using hq'
    · obtain ⟨p, hpm, rfl⟩ := List.mem_map.1 hactive
      obtain ⟨other, hother, hkey⟩ := h.ledger.call_of_active hpm
      rw [show d.ledger.calls = d.calls from rfl, hcall, Option.some.injEq] at hother
      subst hother
      rw [hid] at hkey
      cases hkey
  · rw [hset call hcall] at hopen
    cases hopen

/-- On a dead channel a submit closure refuses its call. -/
theorem Invariant.refused_of_dead {z : Zlib} {d d' : Channel} {i : CallId} {rest : List ChannelTask}
    {o : BuildOutcome} (h : d.Invariant) (hdead : d.Dead) (hs : d.strand = .submit i :: rest)
    (hstep : step z d (.runStrand o) = some d') :
    ∃ call s, d.calls[i]? = some call ∧ d'.calls[i]? = some (call.refuse s) ∧
      (s = callCancelled ∨ s = channelFailed ∨ s = d.impl.shutdownStatus) := by
  have hq : i ∈ d.queued := by simp [queued, hs, ChannelTask.calls]
  have hlt : i < d.calls.length := h.ledger.custody.bound i (List.mem_append_left _ hq)
  have hcall : d.calls[i]? = some d.calls[i] := List.getElem?_eq_getElem hlt
  have hd' : d' = { d with strand := rest }.submit i o := runStrand_eq hs hstep
  have hsubmit : ∃ s, { d with strand := rest }.submit i o = { d with strand := rest }.refuse i s ∧
      (s = callCancelled ∨ s = channelFailed ∨ s = d.impl.shutdownStatus) := by
    simp only [submit]
    rw [show Channel.calls { d with strand := rest } = d.calls from rfl, hcall]
    dsimp only
    split
    · exact ⟨callCancelled, rfl, Or.inl rfl⟩
    · rcases hdead with hfailed | hshut
      · rw [hfailed]
        exact ⟨channelFailed, rfl, Or.inr (Or.inl rfl)⟩
      · rw [hshut]
        exact ⟨d.impl.shutdownStatus, rfl, Or.inr (Or.inr rfl)⟩
  obtain ⟨s, heq, hs⟩ := hsubmit
  refine ⟨d.calls[i], s, hcall, ?_, hs⟩
  rw [hd', heq]
  simp [refuse, push, modify, hcall]

/-- The calls that a GOAWAY fails: those with a registered stream above the last one processed. -/
theorem mem_above_iff {a b : List (StreamId × CallId)} {lastStreamId : StreamId} {i : CallId} :
    i ∈ ((a.filter fun p => decide (lastStreamId < p.1)) ++
        b.filter fun p => decide (lastStreamId < p.1)).map Prod.snd ↔
      ∃ p ∈ a ++ b, lastStreamId < p.1 ∧ p.2 = i := by
  simp only [← List.filter_append, List.mem_map, List.mem_filter, decide_eq_true_eq, and_assoc]

/-- **GOAWAY partitions the calls.** -/
theorem goaway_partitions_calls {z : Zlib} {configuration : Option Status} {es : List ChannelEvent}
    {c c' : Channel} {lastStreamId : StreamId} {rest : List ChannelTask} {o : BuildOutcome}
    (hrun : (machine z).run (new configuration) es = some c)
    (hstrand : c.strand = .onGoaway lastStreamId :: rest) (hstate : c.impl.state ≠ .shutdown)
    (hstep : step z c (.runStrand o) = some c') : GoawayPartition z lastStreamId c c' := by
  have h := invariant_reachable hrun
  have h' := invariant_step h hstep
  have hc' : c' = { c with strand := rest }.onGoaway lastStreamId := by
    have heq := runStrand_eq hstrand hstep
    simpa only [runTask, if_neg hstate] using heq
  have hdead : c'.Dead := by
    rw [hc']
    exact Or.inl rfl
  -- a call fails exactly when its stream is above the last one processed
  have hcalls : ∀ i, c'.calls[i]? = c.calls[i]?.map fun call =>
      if i ∈ ((c.impl.activeCalls.filter fun p => decide (lastStreamId < p.1)) ++
        c.impl.activeStreamingCalls.filter fun p => decide (lastStreamId < p.1)).map Prod.snd then
          call.fail (goawayStatus lastStreamId)
      else call := by
    intro i
    rw [hc']
    exact Ledger.getElem?_failCalls _ _ _ _
  have hfilter : ∀ m : List (StreamId × CallId),
      (m.filter fun p => !decide (lastStreamId < p.1)) =
        m.filter fun p => decide (p.1 ≤ lastStreamId) := by
    intro m
    apply List.filter_congr
    intro p _
    by_cases hlt : lastStreamId < p.1
    · simp [hlt]
    · simp [Int.not_lt.1 hlt]
  refine ⟨by rw [hc']; rfl, ?_, ?_, ?_, ?_, ?_, fun es' d hd => dead_run h' hdead hd, ?_, ?_⟩
  · rw [hc', ← hfilter]
    rfl
  · rw [hc', ← hfilter]
    rfl
  · intro p hp hlt
    obtain ⟨call, hcall, _⟩ := h.ledger.call_of_active hp
    refine ⟨call, hcall, ?_, fun hopen => (h.ledger.calls p.2 call hcall).failedWith hopen _⟩
    rw [hcalls, show c.calls[p.2]? = some call from hcall, Option.map_some,
      if_pos (mem_above_iff.2 ⟨p, hp, hlt, rfl⟩)]
  · intro i hbelow
    rw [hcalls]
    have hnot : ¬ ∃ p ∈ c.impl.activeCalls ++ c.impl.activeStreamingCalls,
        lastStreamId < p.1 ∧ p.2 = i := by
      rintro ⟨p, hp, hlt, hpi⟩
      exact absurd (hbelow p hp hpi) (Int.not_le.2 hlt)
    simp only [if_neg (mem_above_iff.not.2 hnot), Option.map_id']
  -- in every later run
  · intro es' d hd p hp call hcall hopen
    obtain ⟨old, hold, hkey⟩ := h'.ledger.call_of_active hp
    obtain ⟨last, hlast, hev⟩ := calls_run h' hd p.2 old hold
    rw [hcall, Option.some.injEq] at hlast
    subst hlast
    exact (invariant_run h' hd).canComplete hcall (hev.stream p.1 hkey) hopen
  · intro es' d hd hs
    exact (invariant_run h' hd).queues_of_dead (dead_run h' hdead hd).dead hs
  · intro es' d hd i rest' o' d' hs hstep'
    exact (invariant_run h' hd).refused_of_dead (dead_run h' hdead hd).dead hs hstep'

/-- A third stream, 5, and a GOAWAY that has processed the streams up to 3. -/
def goawayAfterThree : List ChannelEvent :=
  connectAndSubmit ++
    [.post (.submitCall none), .runStrand (.accepted 5), .sessionGoaway 3]

theorem goaway_partitions_calls_example :
    ∃ c c', (machine Zlib.none).run (new none) goawayAfterThree = some c ∧
      step Zlib.none c (.runStrand noStream) = some c' ∧ GoawayPartition Zlib.none 3 c c' :=
  ⟨_, _, rfl, rfl, @goaway_partitions_calls Zlib.none none goawayAfterThree _ _ 3 [] noStream
    rfl rfl
    (by decide) rfl⟩

end Channel

end Rpcpio.Client
