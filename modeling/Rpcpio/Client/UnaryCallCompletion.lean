import Rpcpio.Client.UnaryCall

/-!
# The two completion gates of a unary call

Inside a run of `UnaryCall`, the call state goes through the steps of `UnaryCompletion`
(`simulates`), so what holds of the inner gate in any order of events holds here. The outer gate is
`completed_` of `UnaryCallCompletion`: a thread that wins the exchange is the only one that posts
the handler (`OneWinner`).
-/

set_option autoImplicit false

namespace Rpcpio.Client

open Rpcpio.Library Rpcpio.Protocol

/-- The thread has won the exchange of `Complete` and not posted the handler yet. -/
def Pc.isWinner : Pc → Bool
  | .clearCancelStream _ => true
  | .postHandler _ => true
  | _ => false

namespace UnaryCall

/-! ## The inner gate -/

/-- The call state and the callbacks it posted, as in `UnaryCompletion`. -/
def Inner (u : UnaryCall) (v : UnaryCompletion) : Prop := v.call = u.call ∧ v.ioc = u.ioc

theorem Inner.refl_step {z : Zlib} {u u' : UnaryCall} {v : UnaryCompletion} (h : Inner u v)
    (hc : u'.call = u.call) (hi : u'.ioc = u.ioc) :
    ∃ v', (UnaryCompletion.machine z).Reaches v v' ∧ Inner u' v' :=
  ⟨v, Machine.Reaches.refl v, h.1.trans hc.symm, h.2.trans hi.symm⟩

/-- A member function called in a step is an event of `UnaryCompletion`. -/
theorem Inner.after {z : Zlib} {u u' : UnaryCall} {v : UnaryCompletion} (h : Inner u v)
    {r : ClientCallState × List UnaryResultRaw} (e : UnaryEvent)
    (he : UnaryCompletion.step z v e = some (v.after r)) (hc : u'.call = r.1)
    (hi : u'.ioc = u.ioc ++ r.2) :
    ∃ v', (UnaryCompletion.machine z).Reaches v v' ∧ Inner u' v' := by
  refine ⟨v.after r, Machine.Reaches.step he, hc.symm, ?_⟩
  rw [hi, ← h.2]
  rfl

theorem Inner.failActive {z : Zlib} {u : UnaryCall} {v : UnaryCompletion} (h : Inner u v)
    (s : Status) :
    ∃ v', (UnaryCompletion.machine z).Reaches v v' ∧ Inner (u.failActive s) v' := by
  simp only [UnaryCall.failActive]
  split
  · exact h.after (.fail s) (by rw [UnaryCompletion.step, h.1]) rfl rfl
  · exact h.refl_step rfl rfl

/-- **A step of a unary call takes its call state through steps of `UnaryCompletion`.** -/
theorem inner_step {z : Zlib} {u u' : UnaryCall} {v : UnaryCompletion} {e : UnaryCallEvent}
    (h : Inner u v) (hstep : step z u e = some u') :
    ∃ v', (UnaryCompletion.machine z).Reaches v v' ∧ Inner u' v' := by
  cases step_move hstep with
  | submitCheck o =>
      simp only [submitCheck]
      split
      · exact h.refl_step rfl rfl
      · cases o <;> exact h.refl_step rfl rfl
  | failPending s => exact h.refl_step rfl rfl
  | submitBuild o =>
      cases o with
      | invalid s => exact h.refl_step rfl rfl
      | rejected s => exact h.after (.fail s) (by rw [UnaryCompletion.step, h.1]; rfl) rfl rfl
      | accepted id => exact h.refl_step rfl rfl
  | setCancelStream => exact h.refl_step rfl rfl
  | cancelSubmitted => exact h.after .cancel (by rw [UnaryCompletion.step, h.1]) rfl rfl
  | cancelUnset => exact h.refl_step rfl rfl
  | armTimer =>
      exact ⟨{ v with call := v.call.armTimer }, Machine.Reaches.step (e := .armTimer) rfl,
        by rw [h.1]; rfl, h.2⟩
  | response head => exact h.after (.attach head) (by rw [UnaryCompletion.step, h.1]) rfl rfl
  | data chunk => exact h.refl_step rfl rfl
  | trailers hd => exact h.refl_step rfl rfl
  | close errorCode => exact h.refl_step rfl rfl
  | task t rest hs =>
      cases t with
      | data chunk => exact h.after (.data chunk) (by rw [UnaryCompletion.step, h.1]) rfl rfl
      | trailers hd => exact h.after (.trailers hd) (by rw [UnaryCompletion.step, h.1]) rfl rfl
      | close errorCode =>
          exact h.after (.close errorCode) (by rw [UnaryCompletion.step, h.1]) rfl rfl
      | cancel => exact h.after .cancel (by rw [UnaryCompletion.step, h.1]) rfl rfl
      | deadline => exact h.after .deadline (by rw [UnaryCompletion.step, h.1]) rfl rfl
  | ioc i r hr =>
      -- the closure of the `io_context` starts a thread here and invokes the handler there
      refine ⟨{ v with ioc := v.ioc.eraseIdx i, invoked := v.invoked ++ [r] },
        Machine.Reaches.step (e := .runIoc i) ?_, h.1, by rw [h.2]; rfl⟩
      simp [UnaryCompletion.machine, UnaryCompletion.step, h.2, hr]
  | expire t ht =>
      refine ⟨{ v with call := { v.call with timer := t } }, Machine.Reaches.step (e := .expire) ?_,
        by rw [h.1], h.2⟩
      simp [UnaryCompletion.machine, UnaryCompletion.step, h.1, ht]
  | timerHandler t ht =>
      refine ⟨{ v with call := { v.call with timer := t } },
        Machine.Reaches.step (e := .timerHandler) ?_, by rw [h.1]; rfl, h.2⟩
      simp [UnaryCompletion.machine, UnaryCompletion.step, h.1, ht]
  | cancel => exact h.refl_step rfl rfl
  | cancelOnStrand => exact h.after .cancel (by rw [UnaryCompletion.step, h.1]) rfl rfl
  | cancelOnStrandUnset => exact h.refl_step rfl rfl
  -- the threads and the handlers are not part of `UnaryCompletion`
  | thread i pc =>
      cases pc with
      | invokeCancelStream copied => cases copied <;> exact h.refl_step rfl rfl
      | exchange r =>
          simp only [stepThread]
          split <;> exact h.refl_step rfl rfl
      | _ => exact h.refl_step rfl rfl
  | runHandler i r => exact h.refl_step rfl rfl
  | goaway lastStreamId => exact h.failActive _
  | spared lastStreamId => exact h.refl_step rfl rfl
  | shutdown => exact h.failActive _

/-- Every run of a unary call is, for its call state, a run of `UnaryCompletion`. -/
theorem simulates {z : Zlib} {ctx : Option ClientContext} {es : List UnaryCallEvent}
    {u : UnaryCall} (hrun : (machine z).run (new ctx) es = some u) :
    ∃ v, (UnaryCompletion.machine z).Reaches (UnaryCompletion.new ctx) v ∧ Inner u v :=
  Machine.run_simulation (M := machine z) (R := Inner)
    (fun _ _ _ _ hR hs => inner_step hR hs) es (new ctx) u _ ⟨rfl, rfl⟩ hrun

/-! ## The outer gate -/

/-- The threads that won the exchange, the handlers posted and those invoked. -/
def winners (u : UnaryCall) : Nat :=
  u.threads.countP Pc.isWinner + u.posted.length + u.handled.length

/-- At most one thread wins the exchange, and none before `completed_` is set. -/
structure OneWinner (u : UnaryCall) : Prop where
  le_one : u.winners ≤ 1
  none : u.completed = false → u.winners = 0

/-- A step that only starts threads which have not won. -/
theorem OneWinner.congr {u u' : UnaryCall} (h : OneWinner u) (pcs : List Pc)
    (hpcs : ∀ pc ∈ pcs, pc.isWinner = false) (ht : u'.threads = u.threads ++ pcs)
    (hp : u'.posted = u.posted) (hh : u'.handled = u.handled)
    (hc : u'.completed = u.completed) : OneWinner u' := by
  have hz : pcs.countP Pc.isWinner = 0 := List.countP_eq_zero.2 fun pc hm => by simp [hpcs pc hm]
  have hw : u'.winners = u.winners := by
    rw [winners, winners, ht, hp, hh, List.countP_append, hz, Nat.add_zero]
  exact ⟨hw ▸ h.le_one, fun hc' => hw.trans (h.none (hc ▸ hc'))⟩

/-- A step that does not touch the outer gate. -/
theorem OneWinner.same {u u' : UnaryCall} (h : OneWinner u) (ht : u'.threads = u.threads)
    (hp : u'.posted = u.posted) (hh : u'.handled = u.handled)
    (hc : u'.completed = u.completed) : OneWinner u' :=
  h.congr [] (by simp) (by simp [ht]) hp hh hc

/-- A step that starts one thread. -/
theorem OneWinner.spawn {u u' : UnaryCall} (h : OneWinner u) (pc : Pc)
    (hpc : pc.isWinner = false)
    (ht : u'.threads = u.threads ++ [pc]) (hp : u'.posted = u.posted)
    (hh : u'.handled = u.handled) (hc : u'.completed = u.completed) : OneWinner u' :=
  h.congr [pc] (by simp [hpc]) ht hp hh hc

theorem OneWinner.failActive {u : UnaryCall} (h : OneWinner u) (s : Status) :
    OneWinner (u.failActive s) := by
  simp only [UnaryCall.failActive]
  split
  · exact h.same rfl rfl rfl rfl
  · exact h

/-- **An access of a thread keeps at most one winner**: only an exchange that finds `completed_`
unset makes one. -/
theorem OneWinner.stepThread {u : UnaryCall} {i : Nat} {pc : Pc} (h : OneWinner u)
    (hi : u.threads[i]? = some pc) : OneWinner (u.stepThread i pc) := by
  have hle := h.le_one
  have hset := fun x : Pc => countP_set_add (p := Pc.isWinner) (b := x) hi
  have herase := countP_eraseIdx_add (p := Pc.isWinner) hi
  have hkeep : ∀ x : Pc, pc.isWinner = x.isWinner → ∀ u' : UnaryCall,
      u'.threads = u.threads.set i x → u'.posted = u.posted → u'.handled = u.handled →
        u'.completed = u.completed → OneWinner u' := by
    intro x hx u' ht hp hh hc
    have hw : u'.winners = u.winners := by
      have hs := hset x
      rw [hx] at hs
      rw [winners, winners, ht, hp, hh]
      omega
    exact ⟨hw ▸ h.le_one, fun hc' => hw.trans (h.none (hc ▸ hc'))⟩
  cases pc with
  | storeCancelled => exact hkeep .copyCancelStream rfl _ rfl rfl rfl rfl
  | copyCancelStream => exact hkeep (.invokeCancelStream u.cancelStream) rfl _ rfl rfl rfl rfl
  | invokeCancelStream copied =>
      cases copied <;> exact hkeep (.exchange cancelledResult) rfl _ rfl rfl rfl rfl
  | exchange r =>
      simp only [Pc.isWinner, Bool.false_eq_true, if_false, Nat.add_zero] at herase
      simp only [UnaryCall.stepThread]
      by_cases hc : u.completed = true
      · rw [if_pos hc]
        refine ⟨?_, fun hc' => by simp [hc] at hc'⟩
        simp only [winners] at hle ⊢
        omega
      · rw [if_neg hc]
        have hnone := h.none (by simpa using hc)
        have hs := hset (.clearCancelStream r)
        simp only [Pc.isWinner, Bool.false_eq_true, if_false, if_true, Nat.add_zero] at hs
        refine ⟨?_, fun hc' => by cases hc'⟩
        simp only [winners] at hnone ⊢
        omega
  | clearCancelStream r => exact hkeep (.postHandler r) rfl _ rfl rfl rfl rfl
  | postHandler r =>
      simp only [Pc.isWinner, if_true] at herase
      have hw : (u.stepThread i (.postHandler r)).winners = u.winners := by
        simp only [winners, UnaryCall.stepThread, log, List.length_append, List.length_singleton]
        omega
      exact ⟨hw ▸ h.le_one, fun hc' => hw.trans (h.none hc')⟩

/-- **Every step keeps at most one winner.** -/
theorem oneWinner_step {z : Zlib} {u u' : UnaryCall} {e : UnaryCallEvent} (h : OneWinner u)
    (hstep : step z u e = some u') : OneWinner u' := by
  cases step_move hstep with
  | submitCheck o =>
      simp only [submitCheck]
      split
      · exact h.spawn (.exchange cancelledResult) rfl rfl rfl rfl rfl
      · cases o with
        | refused s => exact h.spawn (.exchange (UnaryResultRaw.of s)) rfl rfl rfl rfl rfl
        | queued => exact h.same rfl rfl rfl rfl
        | proceed => exact h.same rfl rfl rfl rfl
  | failPending s => exact h.spawn (.exchange (UnaryResultRaw.of s)) rfl rfl rfl rfl rfl
  | submitBuild o =>
      cases o with
      | invalid s => exact h.spawn (.exchange (UnaryResultRaw.of s)) rfl rfl rfl rfl rfl
      | rejected s => exact h.same rfl rfl rfl rfl
      | accepted id => exact h.same rfl rfl rfl rfl
  | task t rest hs => cases t <;> exact h.same rfl rfl rfl rfl
  | ioc i r => exact h.spawn (.exchange r) rfl rfl rfl rfl rfl
  | cancel => exact h.spawn .storeCancelled rfl rfl rfl rfl rfl
  | cancelOnStrand => exact h.spawn (.exchange cancelledResult) rfl rfl rfl rfl rfl
  | cancelOnStrandUnset => exact h.spawn (.exchange cancelledResult) rfl rfl rfl rfl rfl
  | thread i pc hi => exact h.stepThread hi
  | runHandler i r hr =>
      have hlt : i < u.posted.length := (List.getElem?_eq_some_iff.1 hr).1
      have hw : winners { u with
          posted := u.posted.eraseIdx i, handled := u.handled ++ [r] } = u.winners := by
        simp only [winners, List.length_append, List.length_singleton,
          List.length_eraseIdx_of_lt hlt]
        omega
      exact ⟨hw ▸ h.le_one, fun hc' => hw.trans (h.none hc')⟩
  | goaway lastStreamId => exact h.failActive _
  | spared lastStreamId => exact h
  | shutdown => exact h.failActive _
  -- the other steps leave the completion object alone
  | _ => exact h.same rfl rfl rfl rfl

theorem oneWinner_new (ctx : Option ClientContext) : OneWinner (new ctx) :=
  ⟨Nat.zero_le 1, fun _ => rfl⟩

/-- The outer completion invokes its handler at most once, in every interleaving. -/
theorem handled_le_one {z : Zlib} {ctx : Option ClientContext} {es : List UnaryCallEvent}
    {u : UnaryCall} (hrun : (machine z).run (new ctx) es = some u) : u.handled.length ≤ 1 := by
  have hw : OneWinner u := Machine.run_invariant (M := machine z) (I := OneWinner)
    (fun _ _ _ hs hstep => oneWinner_step hs hstep) es _ u (oneWinner_new ctx) hrun
  have hle := hw.le_one
  simp only [winners] at hle
  omega

/-- What `UnaryCompletion` guarantees holds of the call state of every unary call. -/
theorem trailers_complete {z : Zlib} {ctx : Option ClientContext} {es : List UnaryCallEvent}
    {u : UnaryCall} (hrun : (machine z).run (new ctx) es = some u) :
    u.ioc.length ≤ 1 ∧ (u.call.trailersDone = true → u.call.completed = true) := by
  obtain ⟨v, ⟨fs, hv⟩, hcall, hioc⟩ := simulates hrun
  obtain ⟨_, hfirst, htrailers, _⟩ := UnaryCompletion.completion_once hv
  rw [← hcall, ← hioc]
  refine ⟨?_, htrailers⟩
  have hlen := congrArg List.length hfirst
  have hone : (UnaryCompletion.firstOutcome z (UnaryCompletion.new ctx) fs).toList.length ≤ 1 :=
    Option.length_toList_le
  rw [List.length_append] at hlen
  omega

end UnaryCall

/-- **A unary call completes exactly once.** The completion callback of the call state is invoked at
most once, with the result of the first event that ends the call; processed trailers and a closed
stream leave the call completed; and the outer completion invokes its handler at most once. -/
theorem unary_completion_once (z : Zlib) (ctx : Option ClientContext) :
    (∀ (es : List UnaryEvent) (u : UnaryCompletion),
      (UnaryCompletion.machine z).run (UnaryCompletion.new ctx) es = some u →
        u.invoked.length ≤ 1 ∧
          u.ioc ++ u.invoked =
            (UnaryCompletion.firstOutcome z (UnaryCompletion.new ctx) es).toList ∧
          (u.call.trailersDone = true → u.call.completed = true) ∧
          ((∃ errorCode, .close errorCode ∈ es) → u.call.completed = true)) ∧
      ∀ (es : List UnaryCallEvent) (u : UnaryCall),
        (UnaryCall.machine z).run (UnaryCall.new ctx) es = some u →
          u.handled.length ≤ 1 ∧ u.ioc.length ≤ 1 ∧
            (u.call.trailersDone = true → u.call.completed = true) := by
  constructor
  · intro es u hrun
    exact UnaryCompletion.completion_once hrun
  · intro es u hrun
    exact ⟨UnaryCall.handled_le_one hrun, UnaryCall.trailers_complete hrun⟩

/-- Trailers of a call whose stream then closes; and a cancellation that races with a failed
submission. -/
theorem unary_completion_once_example :
    (∃ u, (UnaryCompletion.machine Zlib.none).run (UnaryCompletion.new none)
        [.attach grpcHead, .trailers okTrailers, .close 0, .cancel, .runIoc 0] = some u ∧
      u.invoked.length ≤ 1) ∧
      ∃ u, (UnaryCall.machine Zlib.none).run (UnaryCall.new none)
          [.cancel, .submitCheck (.refused callCancelled), .thread 0, .thread 0, .thread 1,
            .thread 0, .thread 1, .thread 0, .thread 0, .runHandler 0] = some u ∧
        u.handled.length ≤ 1 := by
  obtain ⟨hinner, houter⟩ := unary_completion_once Zlib.none none
  refine ⟨?_, ?_⟩
  · obtain ⟨u, hu⟩ := Option.isSome_iff_exists.1 (show ((UnaryCompletion.machine Zlib.none).run
      (UnaryCompletion.new none) [.attach grpcHead, .trailers okTrailers, .close 0, .cancel,
        .runIoc 0]).isSome = true by decide)
    exact ⟨u, hu, (hinner _ u hu).1⟩
  · obtain ⟨u, hu⟩ := Option.isSome_iff_exists.1 (show ((UnaryCall.machine Zlib.none).run
      (UnaryCall.new none) [.cancel, .submitCheck (.refused callCancelled), .thread 0, .thread 0,
        .thread 1, .thread 0, .thread 1, .thread 0, .thread 0, .runHandler 0]).isSome = true by
      decide)
    exact ⟨u, hu, (houter _ u hu).1⟩

end Rpcpio.Client
