import Rpcpio.Client.ChannelInvariant

/-!
# A shut down channel drains

Once a channel has been shut down nothing is submitted any more, and every function on the strand
only answers what it holds. `work` counts what is left: closures on the strand, functions on it, the
calls in the queues and in the maps, and the callbacks that the calls have posted. Each of these
steps decreases it, so a shut down channel that is given nothing more comes to rest
(`exists_drained`).
-/

set_option autoImplicit false

namespace Rpcpio.Client

open Rpcpio.Library Rpcpio.Protocol

/-- Replacing an element changes a sum by the difference. -/
theorem sum_map_set {α : Type} (g : α → Nat) {l : List α} {i : Nat} {a : α} (b : α)
    (h : l[i]? = some a) : ((l.set i b).map g).sum + g a = (l.map g).sum + g b := by
  induction l generalizing i with
  | nil => cases h
  | cons x xs ih =>
      cases i with
      | zero =>
          cases h
          simp only [List.set_cons_zero, List.map_cons, List.sum_cons]
          omega
      | succ n =>
          have hn := ih (i := n) (by simpa using h)
          simp only [List.set_cons_succ, List.map_cons, List.sum_cons]
          omega

/-- The strand goes on, a callback of the application returns, or a callback that a call posted
runs. -/
def ChannelEvent.IsWork : ChannelEvent → Prop
  | .callbackReturns => True
  | .runStrand _ => True
  | .resume _ => True
  | .unary _ (.runIoc _) => True
  | .streaming _ (.runIoc _) => True
  | _ => False

/-- The callbacks that a call has posted. -/
def ChannelCall.posted : ChannelCall → Nat
  | .unary u => u.completion.ioc.length
  | .streaming t => t.ioc.length

/-- What a function on the strand has left to do. -/
def Frame.work : Frame → Nat
  | .user => 1
  | .notifyWaiters ws _ => 1 + 2 * ws.length
  | .drainReady => 4
  | .submitCalls ids => 1 + 3 * ids.length
  | .drainGeneric => 2
  | .runGeneric ids => 1 + 3 * ids.length
  | .failAll _ => 4
  | .completePending ids _ => 1 + 3 * ids.length
  | .shutdownActive => 5

namespace ChannelCall

theorem posted_complete_le (c : ClientCallState) (r : UnaryResultRaw) :
    (c.complete r).2.length ≤ 1 := by
  simp only [ClientCallState.complete]
  split <;> simp

theorem posted_fail_le (c : ChannelCall) (s : Status) : (c.fail s).posted ≤ c.posted + 1 := by
  cases c with
  | unary u =>
      have h := posted_complete_le u.completion.call (UnaryResultRaw.of s)
      simp only [fail, posted, SubmittedUnary.fail, SubmittedUnary.after, UnaryCompletion.after,
        ClientCallState.fail, List.length_append]
      omega
  | streaming t =>
      simp only [fail, posted, SubmittedStreaming.fail, SubmittedStreaming.after,
        StreamingCallState.fail]
      split <;> simp

theorem posted_refuse_le (c : ChannelCall) (s : Status) : (c.refuse s).posted ≤ c.posted + 1 := by
  cases c with
  | unary u => exact Nat.le_succ _
  | streaming t => exact (ChannelCall.streaming t).posted_fail_le s

theorem posted_close_le (c : ChannelCall) (errorCode : Nat) :
    (c.close errorCode).posted ≤ c.posted + 1 := by
  cases c with
  | unary u =>
      simp only [close, posted, SubmittedUnary.close, SubmittedUnary.after, UnaryCompletion.after,
        ClientCallState.onStreamClose, List.length_append]
      cases u.completion.call.closeResult errorCode with
      | none => simp [ClientCallState.completeWith]
      | some r =>
          have h := posted_complete_le u.completion.call r
          simp only [ClientCallState.completeWith]
          omega
  | streaming t =>
      simp only [close, posted, SubmittedStreaming.close, SubmittedStreaming.after,
        StreamingCallState.onStreamClose]
      split <;> simp

/-- A callback that runs is not posted any more. -/
theorem posted_runIoc {z : Zlib} {c c' : ChannelCall} {i : Nat}
    (h : c.stepUnary z (.runIoc i) = some c' ∨ c.stepStreaming (.runIoc i) = some c') :
    c'.posted < c.posted := by
  cases c with
  | unary u =>
      rcases h with h | h
      · obtain ⟨u', hu', rfl⟩ := Option.map_eq_some_iff.1 h
        obtain ⟨v, hv, rfl⟩ := Option.map_eq_some_iff.1 hu'
        obtain ⟨r, hr, rfl⟩ := Option.map_eq_some_iff.1 hv
        have hlt := (List.getElem?_eq_some_iff.1 hr).1
        simp only [posted, List.length_eraseIdx, if_pos hlt]
        omega
      · cases h
  | streaming t =>
      rcases h with h | h
      · cases h
      · obtain ⟨t', ht', rfl⟩ := Option.map_eq_some_iff.1 h
        obtain ⟨task, hi, rfl⟩ := Option.map_eq_some_iff.1 ht'
        have hlt := (List.getElem?_eq_some_iff.1 hi).1
        simp only [posted, List.length_eraseIdx, if_pos hlt]
        omega

end ChannelCall

namespace Channel

/-- The callbacks that the calls have posted. -/
def postedWork (calls : List ChannelCall) : Nat := (calls.map ChannelCall.posted).sum

/-- What is left to do on a channel that has been shut down. -/
def work (c : Channel) : Nat :=
  3 * c.strand.length + (c.stack.map Frame.work).sum +
    3 * (c.impl.pendingCalls.length + c.impl.pendingGenericCalls.length) +
    2 * (c.impl.activeCalls.length + c.impl.activeStreamingCalls.length) + postedWork c.calls

/-- A member function of one call that posts at most once. -/
theorem postedWork_modify_le {f : ChannelCall → ChannelCall}
    (hf : ∀ call, (f call).posted ≤ call.posted + 1) (calls : List ChannelCall) (i : CallId) :
    postedWork (calls.modify i f) ≤ postedWork calls + 1 := by
  rw [List.modify_eq_set_getElem?]
  cases hi : calls[i]? with
  | none => simp
  | some call =>
      have hsum := sum_map_set ChannelCall.posted (f call) hi
      have hle := hf call
      show postedWork (calls.set i (f call)) ≤ postedWork calls + 1
      simp only [postedWork] at hsum ⊢
      omega

theorem postedWork_failCalls_le (s : Status) (ids : List CallId) (calls : List ChannelCall) :
    postedWork (failCalls ids s calls) ≤ postedWork calls + ids.length := by
  induction ids generalizing calls with
  | nil => exact Nat.le_refl _
  | cons i ids ih =>
      have hstep := postedWork_modify_le (fun call => call.posted_fail_le s) calls i
      have hrest := ih (calls.modify i (ChannelCall.fail s))
      simp only [failCalls, List.foldl_cons, List.length_cons] at hrest ⊢
      omega

theorem work_push (c : Channel) (fs : List Frame) :
    (c.push fs).work = c.work + (fs.map Frame.work).sum := by
  simp only [work, push, List.map_append, List.sum_append]
  omega

theorem work_notify (c : Channel) (w : WaiterId) (s : Status) :
    (c.notify w s).work = c.work + 1 := by
  simp only [notify, work_push]
  rfl

theorem work_refuse_le (c : Channel) (i : CallId) (s : Status) :
    (c.refuse i s).work ≤ c.work + 2 := by
  have hposted := postedWork_modify_le (fun call => call.posted_refuse_le s) c.calls i
  simp only [refuse, work_push]
  simp only [work, modify, List.map_cons, List.map_nil, List.sum_cons, List.sum_nil, Frame.work]
  omega

/-- A submit closure on a shut down channel only answers the call. -/
theorem work_submit_le {c : Channel} (hs : c.impl.state = .shutdown) (i : CallId)
    (o : BuildOutcome) : (c.submit i o).work ≤ c.work + 2 := by
  simp only [submit, hs]
  split
  · omega
  · split
    · exact c.work_refuse_le i _
    · exact c.work_refuse_le i _

theorem eraseStream_length_le (m : List (StreamId × CallId)) (id : StreamId) :
    (eraseStream m id).length ≤ m.length := List.length_filter_le _ _

theorem work_close_le (c : Channel) (i : CallId) (errorCode : Nat) :
    (c.close i errorCode).work ≤ c.work + 1 := by
  simp only [close]
  split
  · omega
  · split
    · omega
    · rename_i call _ id _
      have hposted := postedWork_modify_le (fun call => call.posted_close_le errorCode) c.calls i
      have hunary := eraseStream_length_le c.impl.activeCalls id
      have hstreaming := eraseStream_length_le c.impl.activeStreamingCalls id
      simp only [work, modify, ChannelImpl.removeActive]
      split <;> dsimp only <;> omega

theorem work_failActive_lt (c : Channel) : c.failActive.work ≤ c.work + 4 := by
  have hposted := postedWork_failCalls_le channelShutDown
    ((c.impl.activeCalls ++ c.impl.activeStreamingCalls).map Prod.snd) c.calls
  simp only [List.length_map, List.length_append] at hposted
  simp only [failActive, work_push]
  simp only [work, List.map_cons, List.map_nil, List.sum_cons, List.sum_nil, Frame.work,
    List.length_nil]
  omega

/-- A closure on a shut down channel. -/
theorem work_runTask_le {c : Channel} (hs : c.impl.state = .shutdown) (t : ChannelTask)
    (o : BuildOutcome) : (c.runTask t o).work ≤ c.work + 2 := by
  cases t with
  | connect w =>
      simp only [runTask, connect, hs, work_notify]
      omega
  | submit i => exact work_submit_le hs i o
  | shutdown =>
      simp only [runTask, doShutdown, hs, if_true]
      omega
  | onConnect =>
      simp only [runTask, onConnect, hs, if_true, work]
      omega
  | onError e =>
      simp only [runTask, onError, hs]
      omega
  | onGoaway lastStreamId =>
      simp only [runTask, hs, if_true]
      omega
  | close i errorCode =>
      have h := c.work_close_le i errorCode
      simp only [runTask]
      omega

/-- A function on the strand of a shut down channel does some of its work. -/
theorem work_runFrame_lt {c : Channel} (hs : c.impl.state = .shutdown) (f : Frame)
    (o : BuildOutcome) : (c.runFrame f o).work < c.work + f.work := by
  cases f with
  | user => exact Nat.lt_succ_self _
  | notifyWaiters ws s =>
      cases ws with
      | nil => exact Nat.lt_succ_self _
      | cons w ws =>
          simp only [runFrame, work_notify, work_push, List.map_cons, List.map_nil, List.sum_cons,
            List.sum_nil, Frame.work, List.length_cons]
          omega
  | drainReady =>
      -- the queue moves into a frame, which weighs less than the queue and the frame before it
      simp only [runFrame, work_push, List.map_cons, List.map_nil, List.sum_cons, List.sum_nil,
        Frame.work]
      simp only [work, List.length_nil]
      omega
  | submitCalls ids =>
      cases ids with
      | nil => exact Nat.lt_succ_self _
      | cons i ids =>
          -- a submission to a channel that is shut down only answers the call
          have h := work_submit_le (c := c.push [.submitCalls ids]) hs i o
          simp only [work_push, List.map_cons, List.map_nil, List.sum_cons, List.sum_nil,
            Frame.work] at h
          simp only [runFrame, Frame.work, List.length_cons]
          omega
  | drainGeneric =>
      simp only [runFrame, work_push, List.map_cons, List.map_nil, List.sum_cons, List.sum_nil,
        Frame.work]
      simp only [work, List.length_nil]
      omega
  | runGeneric ids =>
      cases ids with
      | nil => exact Nat.lt_succ_self _
      | cons i ids =>
          have h := work_submit_le (c := c.push [.runGeneric ids]) hs i o
          simp only [work_push, List.map_cons, List.map_nil, List.sum_cons, List.sum_nil,
            Frame.work] at h
          simp only [runFrame, Frame.work, List.length_cons]
          omega
  | failAll s =>
      simp only [runFrame, work_push, List.map_cons, List.map_nil, List.sum_cons, List.sum_nil,
        Frame.work]
      simp only [work, List.length_nil]
      omega
  | completePending ids s =>
      cases ids with
      | nil => exact Nat.lt_succ_self _
      | cons i ids =>
          have h := (c.push [.completePending ids s]).work_refuse_le i s
          simp only [work_push, List.map_cons, List.map_nil, List.sum_cons, List.sum_nil,
            Frame.work] at h
          simp only [runFrame, Frame.work, List.length_cons]
          omega
  | shutdownActive =>
      have h := c.work_failActive_lt
      simp only [runFrame, Frame.work]
      omega

/-- A callback that a call has posted runs. -/
theorem work_set_lt {c : Channel} {i : CallId} {call call' : ChannelCall}
    (hcall : c.calls[i]? = some call) (hlt : call'.posted < call.posted) :
    ({ c with calls := c.calls.set i call' } : Channel).work < c.work := by
  have hsum := sum_map_set ChannelCall.posted call' hcall
  simp only [work, postedWork]
  omega

/-- **Every step of the strand and of the posted callbacks decreases the work** of a shut down
channel. -/
theorem work_step_lt {z : Zlib} {c c' : Channel} {e : ChannelEvent}
    (hs : c.impl.state = .shutdown) (he : e.IsWork) (hstep : step z c e = some c') :
    c'.work < c.work := by
  cases step_move hstep with
  | callbackReturns hs =>
      simp only [work, hs, List.map_cons, List.sum_cons, Frame.work]
      omega
  | @runStrand t rest o hstack hstrand ho =>
      have h := work_runTask_le (c := { c with strand := rest }) hs t o
      have hrest : c.work = ({ c with strand := rest } : Channel).work + 3 := by
        simp only [work, hstrand, List.length_cons]
        omega
      omega
  | @resume f rest o hstk ho =>
      have h := work_runFrame_lt (c := { c with stack := rest }) hs f o
      have hrest : c.work = ({ c with stack := rest } : Channel).work + f.work := by
        simp only [work, hstk, List.map_cons, List.sum_cons]
        omega
      omega
  | @unary i e call call' hcall h =>
      cases e with
      | runIoc j => exact work_set_lt hcall (ChannelCall.posted_runIoc (Or.inl h))
      | _ => exact he.elim
  | @streaming i e call call' hmay hcall h =>
      cases e with
      | runIoc j => exact work_set_lt hcall (ChannelCall.posted_runIoc (z := z) (Or.inr h))
      | _ => exact he.elim
  | _ => exact he.elim

/-- Nothing is left to do. -/
structure Drained (c : Channel) : Prop where
  strand : c.strand = []
  stack : c.stack = []
  calls : ∀ call ∈ c.calls, call.drained = true

/-- A channel on which nothing can go on is drained. -/
theorem drained_of_quiet {z : Zlib} {c : Channel}
    (hquiet : ∀ e : ChannelEvent, e.IsWork → step z c e = none) : c.Drained := by
  have hfresh : c.isFresh (.rejected channelFailed) = true := rfl
  have hstack : c.stack = [] := by
    cases hstk : c.stack with
    | nil => rfl
    | cons f rest =>
        have hret := hquiet .callbackReturns trivial
        have hres := hquiet (.resume (.rejected channelFailed)) trivial
        cases f <;> simp [step, hstk, hfresh] at hret hres
  refine ⟨?_, hstack, fun call hmem => ?_⟩
  · cases hstrand : c.strand with
    | nil => rfl
    | cons t rest =>
        have hrun := hquiet (.runStrand (.rejected channelFailed)) trivial
        simp [step, hstack, hstrand, hfresh] at hrun
  · obtain ⟨i, hi⟩ := List.mem_iff_getElem?.1 hmem
    cases call with
    | unary u =>
        have hrun := hquiet (.unary i (.runIoc 0)) trivial
        cases hioc : u.completion.ioc with
        | nil => simp [ChannelCall.drained, hioc]
        | cons r rest =>
            simp [step, onCall, hi, ChannelCall.stepUnary, SubmittedUnary.step,
              UnaryCompletion.step, hioc] at hrun
    | streaming t =>
        have hrun := hquiet (.streaming i (.runIoc 0)) trivial
        cases hioc : t.ioc with
        | nil => simp [ChannelCall.drained, hioc]
        | cons r rest =>
            simp [step, mayCancel, onCall, hi, ChannelCall.stepStreaming, SubmittedStreaming.step,
              hioc] at hrun

/-- **A shut down channel comes to rest** by its own steps, whatever is on its strand. -/
theorem exists_drained {z : Zlib} {c : Channel} (h : c.Invariant)
    (hs : c.impl.state = .shutdown) :
    ∃ es c', (∀ e ∈ es, e.IsWork) ∧ (machine z).run c es = some c' ∧ c'.Drained := by
  have hkeep : ∀ (d : Channel) (e : ChannelEvent) (d' : Channel),
      d.Invariant ∧ d.impl.state = .shutdown → (machine z).step d e = some d' →
        d'.Invariant ∧ d'.impl.state = .shutdown := by
    rintro d e d' ⟨hinv, hshut⟩ hstep
    exact ⟨invariant_step hinv hstep, (dead_step hinv.phased (Or.inr hshut) hstep).2 hshut⟩
  have hless : ∀ (d : Channel) (e : ChannelEvent) (d' : Channel),
      d.Invariant ∧ d.impl.state = .shutdown → e.IsWork → (machine z).step d e = some d' →
        d'.work < d.work := by
    rintro d e d' ⟨_, hshut⟩ he hstep
    exact work_step_lt hshut he hstep
  obtain ⟨es, c', hwork, hrun, hquiet⟩ := Machine.exists_quiescent hkeep hless c ⟨h, hs⟩
  exact ⟨es, c', hwork, hrun, drained_of_quiet hquiet⟩

end Channel

end Rpcpio.Client
