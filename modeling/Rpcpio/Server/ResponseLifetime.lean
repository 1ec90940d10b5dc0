import Rpcpio.Server.RespondOnce
import Rpcpio.Server.ServerStreamingCallState

/-!
# The response of a server-streaming call after `OnClose`

The writer is finished by `OnClose`, so nothing that goes through it touches the response
afterwards. `SendError` and `SendHeaders` are guarded by `responded_` only, which `OnClose` does not
set here as it does in the unary and client-streaming call states. What remains is the deadline: a
completion that is queued when `OnClose` cancels the timer will run, and answer a call that was not
answered.
-/

set_option autoImplicit false

namespace Rpcpio.Server

open Rpcpio.Library Rpcpio.Protocol

/-- Any call on the response. -/
def ResponseEffect.isCall : ResponseEffect → Bool
  | .call _ => true
  | .closed => false

/-- `write_head`. -/
def isHead : ResponseCall → Bool
  | .writeHead _ _ => true
  | _ => false

/-- The number of `write_head` calls. -/
def headCount (tr : List ResponseEffect) : Nat :=
  tr.countP fun e => match e with | .call c => isHead c | .closed => false

theorem headCount_append (tr es : List ResponseEffect) :
    headCount (tr ++ es) = headCount tr + headCount es := List.countP_append

theorem headCount_calls (cs : List ResponseCall) :
    headCount (cs.map .call) = cs.countP isHead := by
  simp only [headCount]
  rw [List.countP_map]
  rfl

/-- No call on the response stands behind `OnClose`. -/
abbrev CallsBeforeClose (tr : List ResponseEffect) : Prop :=
  NeverAfter (· = ResponseEffect.closed) (fun e => e.isCall = true) tr

/-- The calls of a member function and `responded_` before and after: no `write_head` and the flag
as it was, or the flag is set with one `write_head`. -/
def HeadStep (responded responded' : Bool) (cs : List ResponseCall) : Prop :=
  (cs.countP isHead = 0 ∧ responded' = responded) ∨
    (cs.countP isHead = 1 ∧ responded = false ∧ responded' = true)

/-- Calls without `write_head` before those of a member function. -/
theorem HeadStep.append {a b : Bool} {cs ds : List ResponseCall} (hc : cs.countP isHead = 0)
    (hd : HeadStep a b ds) : HeadStep a b (cs ++ ds) := by
  simp only [HeadStep]
  rw [List.countP_append, hc, Nat.zero_add]
  exact hd

namespace RawServerWriterImpl

theorem finish_heads (w : RawServerWriterImpl) (s : Status) :
    (w.finish s).2.countP isHead = 0 := by
  simp only [finish]
  split <;> rfl

/-- The writer never writes a head. -/
theorem perform_heads (w : RawServerWriterImpl) (c : WriterCall) :
    (w.perform c).2.countP isHead = 0 := by
  cases c with
  | finish s => exact finish_heads w s
  | write payload =>
      simp only [perform, write]
      split
      · rfl
      · split
        · exact finish_heads w _
        · split <;> rfl

theorem performAll_heads (w : RawServerWriterImpl) (cs : List WriterCall) :
    (w.performAll cs).2.countP isHead = 0 := by
  induction cs generalizing w with
  | nil => rfl
  | cons c cs ih => rw [performAll, List.countP_append, perform_heads, ih]

theorem generate_heads (w : RawServerWriterImpl) (len : Nat) :
    (w.generate len).2.2.countP isHead = 0 := by
  unfold generate
  split
  · split <;> rfl
  · dsimp only
    split <;> rfl

/-- A finished writer makes no call. -/
theorem perform_finished {w : RawServerWriterImpl} (h : w.finished = true) (c : WriterCall) :
    w.perform c = (w, []) := by
  cases c <;> simp [perform, write, finish, h]

theorem performAll_finished {w : RawServerWriterImpl} (h : w.finished = true)
    (cs : List WriterCall) : w.performAll cs = (w, []) := by
  induction cs with
  | nil => rfl
  | cons c cs ih => simp [performAll, perform_finished h, ih]

end RawServerWriterImpl

namespace ServerStreamingCallState

/-- `OnClose` has run, and what is left can make no call: the writer is finished, and the timer is
not pending on a call that was not answered. -/
def Quiet (c : ServerStreamingCallState) : Prop :=
  c.writerImpl.finished = true ∧ (c.responded = true ∨ c.timer = .idle)

/-- What a member function does: `OnClose` aside it keeps `closed_`, writes a head only with
`responded_`, and makes no call on a quiet response. -/
structure MemberStep (c : ServerStreamingCallState)
    (r : ServerStreamingCallState × List ResponseCall) : Prop where
  closed : r.1.closed = c.closed
  head : HeadStep c.responded r.1.responded r.2
  quiet : c.closed = true → c.Quiet → r.2 = [] ∧ r.1.Quiet

theorem memberStep_silent {c c' : ServerStreamingCallState} (hc : c'.closed = c.closed)
    (hr : c'.responded = c.responded) (hq : c.Quiet → c'.Quiet) : MemberStep c (c', []) :=
  ⟨hc, Or.inl ⟨rfl, hr⟩, fun _ h => ⟨rfl, hq h⟩⟩

theorem headStep_sendError {z : Zlib} (c : ServerStreamingCallState) (s : Status) :
    HeadStep c.responded (c.sendError z s).1.responded (c.sendError z s).2 := by
  simp only [sendError]
  by_cases h : c.responded = true
  · rw [if_pos h]
    exact Or.inl ⟨rfl, rfl⟩
  · rw [if_neg h]
    exact Or.inr ⟨rfl, by simpa using h, rfl⟩

@[simp] theorem sendError_closed {z : Zlib} (c : ServerStreamingCallState) (s : Status) :
    (c.sendError z s).1.closed = c.closed := by
  simp only [sendError]
  split <;> rfl

theorem memberStep_perform (c : ServerStreamingCallState) (w : WriterCall) :
    MemberStep c (c.perform w) := by
  refine ⟨rfl, Or.inl ⟨RawServerWriterImpl.perform_heads _ _, rfl⟩, fun _ hq => ?_⟩
  simp only [perform, RawServerWriterImpl.perform_finished hq.1]
  exact ⟨trivial, hq⟩

/-- `trigger_cancel` does not answer the call. -/
theorem triggerCancel_frame (c : ServerStreamingCallState) (slot : List WriterCall) :
    (c.triggerCancel slot).1.closed = c.closed ∧
      (c.triggerCancel slot).1.responded = c.responded ∧
      (c.triggerCancel slot).1.timer = c.timer ∧
      (c.triggerCancel slot).2.countP isHead = 0 :=
  ⟨rfl, rfl, rfl, RawServerWriterImpl.performAll_heads _ _⟩

/-- The deadline answers an unanswered call; on a closed one it must find it answered. -/
theorem memberStep_onDeadline {z : Zlib} {c : ServerStreamingCallState} (slot : List WriterCall)
    (hq : c.closed = true → c.writerImpl.finished = true ∧ c.responded = true) :
    c.closed = (c.onDeadline z slot).1.closed ∧
      HeadStep c.responded (c.onDeadline z slot).1.responded (c.onDeadline z slot).2 ∧
      (c.closed = true → (c.onDeadline z slot).2 = [] ∧ (c.onDeadline z slot).1.Quiet) := by
  refine ⟨by simp [onDeadline, triggerCancel], ?_, fun hc => ?_⟩
  · exact HeadStep.append (c.triggerCancel_frame slot).2.2.2
      (headStep_sendError (c.triggerCancel slot).1 deadlineExceeded)
  · obtain ⟨hfin, hresp⟩ := hq hc
    have hnone := RawServerWriterImpl.performAll_finished hfin slot
    simp only [onDeadline, triggerCancel, hnone, sendError, hresp, if_true]
    exact ⟨rfl, hfin, Or.inl rfl⟩

/-- `OnClose` on an open call that is answered, or whose timer has no completion queued; the calls
made inside it are those of the slot handler. -/
theorem onClose_frame {c : ServerStreamingCallState} (hopen : c.closed = false)
    (slot : List WriterCall) (hgood : c.responded = true ∨ c.timer ≠ .expired) :
    (c.onClose slot).2.countP isHead = 0 ∧ (c.onClose slot).1.responded = c.responded ∧
      (c.onClose slot).1.closed = true ∧ (c.onClose slot).1.Quiet := by
  have hidle : c.timer ≠ .expired → c.timer.cancel = .idle := by
    cases c.timer <;> simp [Timer.cancel]
  have htimer := hgood.imp_right hidle
  unfold onClose
  rw [if_neg (by simp [hopen])]
  dsimp only
  split
  · rename_i hfin
    exact ⟨rfl, rfl, rfl, hfin, htimer⟩
  · exact ⟨RawServerWriterImpl.performAll_heads _ _, rfl, rfl, rfl, htimer⟩

theorem memberStep_cancel {z : Zlib} (c : ServerStreamingCallState) (s : Status)
    (slot : List WriterCall) : MemberStep c (c.cancel z s slot) := by
  unfold cancel
  by_cases h : (c.closed || c.writerImpl.finished) = true
  · rw [if_pos h]
    exact memberStep_silent rfl rfl id
  · rw [if_neg h]
    have hc : c.closed = false := by
      cases hc : c.closed <;> simp_all
    obtain ⟨hclosed, hresp, _, hheads⟩ := c.triggerCancel_frame slot
    dsimp only
    by_cases hr : (c.triggerCancel slot).1.responded = true
    · rw [if_pos hr]
      refine ⟨hclosed, HeadStep.append hheads (Or.inl ⟨?_, hresp⟩), fun h' => ?_⟩
      · exact RawServerWriterImpl.perform_heads _ _
      · simp [hc] at h'
    · rw [if_neg hr]
      refine ⟨by simp [hclosed], HeadStep.append hheads ?_, fun h' => ?_⟩
      · rw [← hresp]
        exact headStep_sendError _ s
      · simp [hc] at h'

theorem memberStep_handlerReturned (c : ServerStreamingCallState) (status : Option Status) :
    MemberStep c (c.handlerReturned status) := by
  simp only [handlerReturned]
  split
  · exact memberStep_silent rfl rfl id
  · exact memberStep_perform c _

theorem memberStep_generate {c : ServerStreamingCallState} (hopen : c.closed = false) (len : Nat) :
    MemberStep c ({ c with writerImpl := (c.writerImpl.generate len).1 },
      (c.writerImpl.generate len).2.2) := by
  refine ⟨rfl, Or.inl ⟨RawServerWriterImpl.generate_heads _ _, rfl⟩, fun h => ?_⟩
  rw [hopen] at h
  cases h

theorem headStep_start {z : Zlib} (c : ServerStreamingCallState) (req : Request) :
    HeadStep c.responded (c.start z req).1.responded (c.start z req).2.1 ∧
      (c.start z req).1.closed = c.closed := by
  unfold start
  dsimp only
  split
  · exact ⟨headStep_sendError _ _, sendError_closed _ _⟩
  · exact ⟨Or.inl ⟨rfl, rfl⟩, rfl⟩

theorem headStep_onRequestEnd {z : Zlib} (c : ServerStreamingCallState) :
    HeadStep c.responded (c.onRequestEnd z).1.responded (c.onRequestEnd z).2.1 ∧
      (c.onRequestEnd z).1.closed = c.closed ∧
      ((c.onRequestEnd z).2.2.isSome = true → (c.onRequestEnd z).1.responded = true) := by
  unfold onRequestEnd
  dsimp only
  split
  · exact ⟨Or.inl ⟨rfl, rfl⟩, rfl, fun h => by cases h⟩
  · rename_i hr
    split
    · exact ⟨headStep_sendError _ _, sendError_closed _ _, fun h => by cases h⟩
    · split
      · exact ⟨headStep_sendError _ _, sendError_closed _ _, fun h => by cases h⟩
      · exact ⟨Or.inr ⟨rfl, by simpa using hr, rfl⟩, rfl, fun _ => rfl⟩

theorem headStep_onData {z : Zlib} (c : ServerStreamingCallState) (chunk : Bytes) :
    HeadStep c.responded (c.onData z chunk).1.responded (c.onData z chunk).2.1 ∧
      (c.onData z chunk).1.closed = c.closed ∧
      ((c.onData z chunk).2.2.isSome = true → (c.onData z chunk).1.responded = true) := by
  unfold onData
  split
  · exact ⟨Or.inl ⟨rfl, rfl⟩, rfl, fun h => by cases h⟩
  · split
    · exact headStep_onRequestEnd { c with decoder := c.decoder.markEos }
    · dsimp only
      split
      · exact ⟨headStep_sendError { c with decoder := c.decoder.feed chunk } _,
          sendError_closed _ _, fun h => by cases h⟩
      · exact ⟨Or.inl ⟨rfl, rfl⟩, rfl, fun h => by cases h⟩

/-- A chunk that neither ends the request nor breaks its framing makes no call; nor does any chunk
of an answered call. -/
theorem onData_quiet {z : Zlib} {c : ServerStreamingCallState} {chunk : Bytes}
    (h : c.responded = true ∨ (chunk ≠ [] ∧ (c.decoder.feed chunk).isError = false))
    (hq : c.Quiet) : (c.onData z chunk).2.1 = [] ∧ (c.onData z chunk).1.Quiet := by
  simp only [onData]
  by_cases hr : c.responded = true
  · rw [if_pos hr]
    exact ⟨rfl, hq⟩
  · rw [if_neg hr]
    rcases h with h | ⟨hne, herr⟩
    · exact absurd h hr
    · have hemp : chunk.isEmpty = false := by
        cases chunk with
        | nil => exact absurd rfl hne
        | cons b bs => rfl
      simp only [hemp, herr, Bool.false_eq_true, if_false]
      exact ⟨trivial, hq⟩

end ServerStreamingCallState

namespace ServerStreamingCall

/-- The condition under which the response is not used after `OnClose`: an unanswered call is not
closed while the completion of its timer is queued, and no end of the request and no framing error
is delivered to it afterwards. -/
def ClosesAnswered (u : ServerStreamingCall) : ServerStreamingEvent → Prop
  | .close _ => u.call.closed = false → u.call.responded = true ∨ u.call.timer ≠ .expired
  | .data chunk =>
      u.call.closed = true → u.call.responded = true ∨
        (chunk ≠ [] ∧ (u.call.decoder.feed chunk).isError = false)
  | _ => True

instance (u : ServerStreamingCall) (e : ServerStreamingEvent) : Decidable (u.ClosesAnswered e) := by
  simp only [ClosesAnswered]
  split <;> infer_instance

structure ResponseOrder (u : ServerStreamingCall) : Prop where
  heads : headCount u.trace ≤ 1
  unresponded : u.call.responded = false → headCount u.trace = 0
  ordered : CallsBeforeClose u.trace
  unclosed : u.call.closed = false → ResponseEffect.closed ∉ u.trace
  quiet : u.call.closed = true → u.call.Quiet
  started : u.call.closed = true → u.started = true

/-- A member function other than `OnClose` keeps the order. -/
theorem ResponseOrder.calls {u u' : ServerStreamingCall} (hu : ResponseOrder u)
    (cs : List ResponseCall) (ht : u'.trace = u.trace ++ cs.map .call)
    (hc : u'.call.closed = u.call.closed)
    (hh : HeadStep u.call.responded u'.call.responded cs)
    (hq : u.call.closed = true → cs = [] ∧ u'.call.Quiet)
    (hs : u.started = true → u'.started = true) : ResponseOrder u' := by
  have hheads : headCount u'.trace = headCount u.trace + cs.countP isHead := by
    rw [ht, headCount_append, headCount_calls]
  have hle := hu.heads
  refine ⟨?_, fun hr => ?_, ?_, fun hc' => ?_, fun hc' => (hq (hc ▸ hc')).2,
    fun hc' => hs (hu.started (hc ▸ hc'))⟩
  · -- no head is written, or the first one
    rcases hh with ⟨h0, _⟩ | ⟨h1, hr, _⟩
    · omega
    · have := hu.unresponded hr
      omega
  · rcases hh with ⟨h0, hr'⟩ | ⟨_, _, hr'⟩
    · have := hu.unresponded (hr' ▸ hr)
      omega
    · rw [hr'] at hr
      cases hr
  · rw [ht]
    refine neverAfter_append hu.ordered (neverAfter_of_forall_not_left fun e he hcl => ?_) ?_
    · obtain ⟨c, _, rfl⟩ := List.mem_map.1 he
      cases hcl
    · rintro ⟨e, he, rfl⟩ b hb
      cases hcl : u.call.closed with
      | false => exact absurd he (hu.unclosed hcl)
      | true =>
          rw [(hq hcl).1] at hb
          cases hb
  · rw [ht]
    intro hmem
    rcases List.mem_append.1 hmem with hmem | hmem
    · exact hu.unclosed (hc ▸ hc') hmem
    · obtain ⟨c, _, hcl⟩ := List.mem_map.1 hmem
      cases hcl

theorem ResponseOrder.member {u : ServerStreamingCall} (hu : ResponseOrder u)
    {r : ServerStreamingCallState × List ResponseCall} (h : u.call.MemberStep r) :
    ResponseOrder (u.after r) :=
  hu.calls r.2 rfl h.closed h.head (fun hc => h.quiet hc (hu.quiet hc)) id

/-- `OnClose` on a call that is answered, or whose timer has no completion queued. -/
theorem ResponseOrder.onClose {u : ServerStreamingCall} (hu : ResponseOrder u)
    (hs : u.started = true) (slot : List WriterCall) (hopen : u.call.closed = false)
    (hgood : u.call.responded = true ∨ u.call.timer ≠ .expired) :
    ResponseOrder { u.after (u.call.onClose (u.slotCalls slot)) with
      trace := (u.after (u.call.onClose (u.slotCalls slot))).trace ++ [.closed] } := by
  obtain ⟨hheads, hresp, hclosed, hquiet⟩ :=
    ServerStreamingCallState.onClose_frame hopen (u.slotCalls slot) hgood
  generalize u.call.onClose (u.slotCalls slot) = r at hheads hresp hclosed hquiet ⊢
  obtain ⟨c', cs⟩ := r
  have htrace : headCount (u.trace ++ cs.map .call ++ [.closed]) = headCount u.trace := by
    rw [headCount_append, headCount_append, headCount_calls, hheads]
    rfl
  refine ⟨?_, fun h => ?_, ?_, fun h => ?_, fun _ => hquiet, fun _ => hs⟩
  · exact htrace ▸ hu.heads
  · exact htrace.trans (hu.unresponded (hresp ▸ h))
  · have hcalls : CallsBeforeClose (u.trace ++ cs.map .call) := by
      refine neverAfter_append hu.ordered (neverAfter_of_forall_not_left fun e he hcl => ?_) ?_
      · obtain ⟨c, _, rfl⟩ := List.mem_map.1 he
        cases hcl
      · rintro ⟨e, he, rfl⟩
        exact absurd he (hu.unclosed hopen)
    refine neverAfter_append hcalls (neverAfter_of_forall_not fun e he => ?_) fun _ e he => ?_
    all_goals
      rw [List.mem_singleton] at he
      subst he
      simp [ResponseEffect.isCall]
  · exact absurd (hclosed.symm.trans h) (by simp)

/-- **No step uses the response after `OnClose`**, if an unanswered call is not closed while its
timer has expired. -/
theorem responseOrder_step {z : Zlib} {u u' : ServerStreamingCall} {e : ServerStreamingEvent}
    (hu : ResponseOrder u) (hgood : u.ClosesAnswered e) (h : step z u e = some u') :
    ResponseOrder u' := by
  cases step_move h with
  | start req hs =>
      obtain ⟨hh, hc⟩ := ServerStreamingCallState.headStep_start (z := z) u.call req
      exact hu.calls _ rfl hc hh (fun hcl => absurd ((hu.started hcl).symm.trans hs) (by simp))
        fun _ => rfl
  | data chunk hreg =>
      obtain ⟨hh, hc, _⟩ := ServerStreamingCallState.headStep_onData (z := z) u.call chunk
      exact hu.calls _ rfl hc hh (fun hcl =>
        ServerStreamingCallState.onData_quiet (hgood hcl) (hu.quiet hcl)) id
  | expire t ht =>
      refine hu.calls [] (by simp) rfl (Or.inl ⟨rfl, rfl⟩) (fun hcl => ⟨rfl, ?_⟩) id
      obtain ⟨hfin, hresp | hidle⟩ := hu.quiet hcl
      · exact ⟨hfin, Or.inl hresp⟩
      · rw [hidle] at ht
        cases ht
  | timerHandler slot t ht =>
      -- the timer is not idle, so that on a closed stream the response is complete
      have hq : u.call.closed = true →
          u.call.writerImpl.finished = true ∧ u.call.responded = true := by
        intro hcl
        obtain ⟨hfin, hresp | hidle⟩ := hu.quiet hcl
        · exact ⟨hfin, hresp⟩
        · rw [hidle] at ht
          cases ht
      obtain ⟨hc, hh, hqs⟩ := ServerStreamingCallState.memberStep_onDeadline (z := z)
        (c := { u.call with timer := t }) (u.slotCalls slot) hq
      exact hu.calls _ rfl hc.symm hh hqs id
  | cancel s slot => exact hu.member (ServerStreamingCallState.memberStep_cancel _ _ _)
  | perform w hspawned => exact hu.member (ServerStreamingCallState.memberStep_perform _ _)
  | addMetadata trailing key value hspawned =>
      exact hu.calls [] (by simp) rfl (Or.inl ⟨rfl, rfl⟩) (fun hcl => ⟨rfl, hu.quiet hcl⟩) id
  | handlerReturn i status req hi =>
      have hm := ServerStreamingCallState.memberStep_handlerReturned u.call status
      exact hu.calls _ rfl hm.closed hm.head (fun hcl => hm.quiet hcl (hu.quiet hcl)) id
  | closeAgain slot hs hclosed => exact hu
  | close slot hs hopen => exact hu.onClose hs slot hopen (hgood hopen)
  | poll len hspawned hopen =>
      exact hu.member (ServerStreamingCallState.memberStep_generate hopen len)

theorem responseOrder_new (c : ServerStreamingCallState) (hc : c.closed = false) :
    ResponseOrder (new c) :=
  ⟨Nat.zero_le 1, fun _ => rfl, neverAfter_nil, fun _ => List.not_mem_nil,
    fun h => (by simp [new, hc] at h), fun h => (by simp [new, hc] at h)⟩

/-- **A server-streaming call does not use its response after close**, in every run in which an
unanswered call is not closed while its timer has expired and hears nothing of its request
afterwards. -/
theorem response_unused_after_close {z : Zlib}
    {maxRequestSize maxMetadataSize maxResponseSize : Nat} {peerIdentity : Bytes}
    {es : List ServerStreamingEvent} {u : ServerStreamingCall}
    (hgood : (machine z).Along ClosesAnswered (new (ServerStreamingCallState.new maxRequestSize
      maxMetadataSize maxResponseSize peerIdentity)) es)
    (hrun : (machine z).run (new (ServerStreamingCallState.new maxRequestSize maxMetadataSize
      maxResponseSize peerIdentity)) es = some u) :
    headCount u.trace ≤ 1 ∧ CallsBeforeClose u.trace := by
  have hu : ResponseOrder u := Machine.run_invariant_along (M := machine z) (I := ResponseOrder)
    (fun _ _ _ hs hg hst => responseOrder_step hs hg hst) es _ u
    (responseOrder_new _ rfl) hgood hrun
  exact ⟨hu.heads, hu.ordered⟩

/-- A small call. -/
def smallCall : ServerStreamingCall := new (ServerStreamingCallState.new 100 100 100 [])

/-- A call whose stream closes with an expired timer after its request is complete. -/
theorem response_unused_example :
    ∃ u, (machine Zlib.none).run smallCall
        [.start timeoutRequest, .data (frameOf [1]), .expire, .data [], .perform (.write [2]),
          .poll 4, .close [.finish handlerThrew], .timerHandler [], .perform (.write [3]),
          .handlerReturn 0 none] = some u ∧
      headCount u.trace ≤ 1 ∧ CallsBeforeClose u.trace := by
  obtain ⟨u, hu⟩ := Option.isSome_iff_exists.1 (show ((machine Zlib.none).run smallCall
    [.start timeoutRequest, .data (frameOf [1]), .expire, .data [], .perform (.write [2]),
      .poll 4, .close [.finish handlerThrew], .timerHandler [], .perform (.write [3]),
      .handlerReturn 0 none]).isSome = true by decide)
  exact ⟨u, hu, response_unused_after_close (by decide) hu⟩

/-- **A reset before the request is complete, with the timer's completion queued, writes a head on a
closed stream.** -/
theorem not_response_unused :
    ¬ ∀ (z : Zlib) (maxRequestSize maxMetadataSize maxResponseSize : Nat) (peerIdentity : Bytes)
        (es : List ServerStreamingEvent) (u : ServerStreamingCall),
        (machine z).run (new (ServerStreamingCallState.new maxRequestSize maxMetadataSize
          maxResponseSize peerIdentity)) es = some u →
          headCount u.trace ≤ 1 ∧ CallsBeforeClose u.trace := by
  intro h
  have hrun : ((machine Zlib.none).run smallCall
      [.start timeoutRequest, .expire, .close [], .timerHandler []]).map (·.trace) =
        some (.closed :: (errorReply Zlib.none deadlineExceeded).effects) := by
    decide
  obtain ⟨u, hu, htrace⟩ := Option.map_eq_some_iff.1 hrun
  have horder := (h _ _ _ _ _ _ u hu).2
  rw [htrace] at horder
  have hhead := (List.pairwise_cons.1 horder).1 _ (List.mem_cons_self)
  exact hhead rfl rfl

end ServerStreamingCall

end Rpcpio.Server
