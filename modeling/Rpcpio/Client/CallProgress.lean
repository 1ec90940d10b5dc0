import Rpcpio.Client.ContextLifetime

/-!
# The timer and the reset of a client call

What every step of a client call does to three things: whether the call is ended, whether its
deadline is watched (the timer waits, or its completion or the closure it posted is queued), and
whether the stream has been reset. A call that is ended stays ended; only what ends a call takes the
watch away; and a reset comes with the end of the call (`StreamingCall.progress_step`,
`UnaryCall.progress_step`).
-/

set_option autoImplicit false

namespace Rpcpio.Client

open Rpcpio.Library Rpcpio.Protocol

/-- A reset of the stream has been issued. -/
def ResetIssued (tr : List Effect) : Prop := Effect.request .cancel ∈ tr

instance (tr : List Effect) : Decidable (ResetIssued tr) := inferInstanceAs (Decidable (_ ∈ _))

theorem resetIssued_append {tr es : List Effect} (h : ResetIssued (tr ++ es))
    (hes : Effect.request .cancel ∉ es) : ResetIssued tr := by
  rcases List.mem_append.1 h with h | h
  · exact h
  · exact absurd h hes

theorem reset_not_mem_contextReads (ctx : Option ClientContext) :
    Effect.request .cancel ∉ contextReads ctx := by
  simp only [contextReads]
  split <;> simp

/-! ## Streaming calls -/

namespace StreamingCallState

/-- A member function keeps an ended call ended, and touches the timer only when it ends the
call. -/
structure Keeps (c c' : StreamingCallState) : Prop where
  closed : c.closed = true → c'.closed = true
  timer : c'.closed = true ∨ c'.timer = c.timer

theorem Keeps.refl (c : StreamingCallState) : Keeps c c := ⟨id, Or.inr rfl⟩

theorem Keeps.ended {c c' : StreamingCallState} (h : c'.closed = true) : Keeps c c' :=
  ⟨fun _ => h, Or.inl h⟩

theorem onStreamClose_closed (c : StreamingCallState) (errorCode : Nat) :
    (c.onStreamClose errorCode).1.closed = true := by
  simp only [onStreamClose]
  split
  · assumption
  · rfl

theorem keeps_foldl_deliver (c : StreamingCallState) (ps : List Bytes) :
    Keeps c (ps.foldl deliver c) := by
  have hclosed := foldl_deliver_frame closed_deliver c ps
  have htimer := foldl_deliver_frame timer_deliver c ps
  exact ⟨fun hc => hclosed.trans hc, Or.inr htimer⟩

theorem keeps_onData (c : StreamingCallState) (maxMsgSize : Nat) (chunk : Bytes) :
    Keeps c (c.onData maxMsgSize chunk).1 := by
  simp only [onData]
  split
  · exact .refl c
  split
  · have h := keeps_foldl_deliver { c with lpm := (c.lpm.feed maxMsgSize chunk).parser }
      (c.lpm.feed maxMsgSize chunk).messages
    exact ⟨h.closed, h.timer⟩
  · exact .ended (fail_closed _ _)

theorem keeps_onTrailers (c : StreamingCallState) (h : HeaderMap) : Keeps c (c.onTrailers h) := by
  simp only [onTrailers]
  split
  · exact .refl c
  · exact ⟨id, Or.inr rfl⟩

theorem keeps_attach (c : StreamingCallState) (head : ResponseHead) :
    Keeps c (c.attach head).1 := by
  simp only [attach]
  split
  · exact .ended (fail_closed _ _)
  · exact .refl c
  · exact .refl c

theorem keeps_runIoc (c : StreamingCallState) (t : IocTask) : Keeps c (c.runIoc t) := by
  cases t with
  | failed s => exact ⟨id, Or.inr rfl⟩
  | streamClosed errorCode trailersDone =>
      cases trailersDone with
      | true => exact .refl c
      | false => exact ⟨id, Or.inr rfl⟩
  | trailersOnly s =>
      simp only [runIoc]
      split
      · exact .refl c
      · exact .ended rfl

end StreamingCallState

namespace StreamingCall

/-- The call is ended, or its deadline is watched. -/
def Watched (w : StreamingCall) : Prop :=
  w.call.closed = true ∨ w.call.timer ≠ .idle ∨ StrandTask.deadline ∈ w.strand

/-- What a step does to the end of the call, to a reset, and to the watch on the deadline. -/
structure Progress (w w' : StreamingCall) : Prop where
  closed : w.call.closed = true → w'.call.closed = true
  reset : ResetIssued w'.trace → ResetIssued w.trace ∨ w'.call.closed = true
  watched : w.Watched → w'.Watched

/-- A step inside a member function: what was queued on the strand stays queued. -/
theorem progress_keeps {w w' : StreamingCall} (hk : StreamingCallState.Keeps w.call w'.call)
    (hs : StrandTask.deadline ∈ w.strand → StrandTask.deadline ∈ w'.strand) (es : List Effect)
    (ht : w'.trace = w.trace ++ es) (hes : Effect.request .cancel ∉ es) : Progress w w' := by
  refine ⟨hk.closed, fun hr => Or.inl (resetIssued_append (ht ▸ hr) hes), fun hw => ?_⟩
  rcases hk.timer with hc | htimer
  · exact Or.inl hc
  · rcases hw with hw | hw | hw
    · exact Or.inl (hk.closed hw)
    · exact Or.inr (Or.inl (htimer ▸ hw))
    · exact Or.inr (Or.inr (hs hw))

/-- A step that ends the call. -/
theorem progress_ended {w w' : StreamingCall} (h : w'.call.closed = true) : Progress w w' :=
  ⟨fun _ => h, fun _ => Or.inr h, fun _ => Or.inl h⟩

/-- A closure of the writer only wakes its generator. -/
theorem onWriter_progress (w : StreamingCall) (rest : List StrandTask)
    {f : RawClientWriterImpl → RawClientWriterImpl × List RequestCall}
    (hf : ∀ x, RequestCall.cancel ∉ (f x).2)
    (hs : StrandTask.deadline ∈ w.strand → StrandTask.deadline ∈ rest) :
    Progress w ({ w with strand := rest }.onWriter f) := by
  simp only [onWriter]
  split
  · exact progress_keeps (.refl _) hs [] (by simp) (by simp)
  · rename_i x hx
    refine progress_keeps ⟨id, Or.inr rfl⟩ hs _ rfl ?_
    intro hmem
    obtain ⟨r, hr, heq⟩ := List.mem_map.1 hmem
    cases heq
    exact hf x hr

theorem cancelActive_progress (w : StreamingCall) : Progress w w.cancelActive := by
  simp only [cancelActive]
  split
  · exact progress_ended (StreamingCallState.fail_closed _ _)
  · exact progress_keeps (.refl _) id [] (by simp) (by simp)

theorem failActive_progress (w : StreamingCall) (s : Status) : Progress w (w.failActive s) := by
  simp only [failActive]
  split
  · exact progress_ended (StreamingCallState.fail_closed _ _)
  · exact progress_keeps (.refl _) id [] (by simp) (by simp)

/-- Waking the generator is no reset. -/
theorem cancel_not_mem_wake (x : RawClientWriterImpl) : RequestCall.cancel ∉ x.wake := by
  simp only [RawClientWriterImpl.wake]
  split <;> simp

/-- The closure at the front of the strand runs. -/
theorem runTask_progress {w : StreamingCall} {t : StrandTask} {rest : List StrandTask}
    (hs : w.strand = t :: rest) : Progress w ({ w with strand := rest }.runTask t) := by
  have hrest : t ≠ .deadline → StrandTask.deadline ∈ w.strand → StrandTask.deadline ∈ rest := by
    intro hne hmem
    rw [hs] at hmem
    rcases List.mem_cons.1 hmem with h | h
    · exact absurd h.symm hne
    · exact h
  cases t with
  | data maxMsgSize chunk =>
      exact progress_keeps (w.call.keeps_onData maxMsgSize chunk) (hrest (by simp)) []
        (by simp [runTask, after]) (by simp)
  | trailers h =>
      apply progress_keeps (w.call.keeps_onTrailers h) (hrest (by simp)) _ rfl
      split <;> simp
  | close errorCode => exact progress_ended (StreamingCallState.onStreamClose_closed _ _)
  | enqueue frame =>
      exact onWriter_progress w rest (fun x => cancel_not_mem_wake _) (hrest (by simp))
  | writesDone =>
      exact onWriter_progress w rest (fun x => cancel_not_mem_wake _) (hrest (by simp))
  | cancel =>
      have h := cancelActive_progress { w with strand := rest }
      refine ⟨h.closed, h.reset, fun hw => h.watched ?_⟩
      exact hw.imp_right fun hw => hw.imp_right (hrest (by simp))
  | deadline => exact progress_ended (StreamingCallState.fail_closed _ _)

/-- **Every step but an accepted submission keeps an ended call ended, keeps the watch on the
deadline of the others, and resets the stream only when it ends the call.** -/
theorem progress_step {w w' : StreamingCall} {e : CallEvent} (h : w.step e = some w')
    (he : ∀ id, e ≠ .submit (.accepted id)) : Progress w w' := by
  -- posting a closure takes nothing away from the strand
  have hposted : ∀ (t : StrandTask), Progress w (w.post t) := by
    intro t
    refine progress_keeps (.refl _) (fun hmem => ?_) [] (by simp [post]) (by simp)
    exact List.mem_append.2 (Or.inl hmem)
  have hsame : Progress w w := progress_keeps (.refl _) id [] (by simp) (by simp)
  cases step_move h with
  | submit o =>
      cases o with
      | accepted id => exact absurd rfl (he id)
      | refused s => exact progress_ended (StreamingCallState.fail_closed _ _)
      | invalid s => exact progress_ended (StreamingCallState.fail_closed _ _)
      | rejected s => exact progress_ended (StreamingCallState.fail_closed _ _)
  | response head =>
      refine progress_keeps (w.call.keeps_attach head) id _ rfl ?_
      split
      · exact reset_not_mem_contextReads _
      · simp
  | noData chunk => exact hsame
  | data maxMsgSize chunk => exact hposted _
  | trailers hd =>
      exact progress_keeps (.refl _) (fun hmem => List.mem_append.2 (Or.inl hmem)) []
        (by simp [post]) (by simp)
  | close errorCode =>
      exact progress_keeps (.refl _) (fun hmem => List.mem_append.2 (Or.inl hmem)) [.sessionClosed]
        rfl (by simp)
  | task t rest hs => exact runTask_progress hs
  | ioc i t =>
      refine progress_keeps (w.call.keeps_runIoc t) id _ rfl ?_
      cases t with
      | failed s => simp [iocEffects]
      | streamClosed errorCode trailersDone => cases trailersDone <;> simp [iocEffects]
      | trailersOnly s =>
          simp only [iocEffects]
          split <;> simp
  | expire t ht =>
      obtain ⟨_, rfl⟩ := Timer.expire_eq_some ht
      -- the timer goes from armed to fired, and from there to the strand
      exact ⟨id, Or.inl, fun _ => Or.inr (Or.inl (by simp))⟩
  | timerHandler t =>
      exact ⟨id, Or.inl, fun _ => Or.inr (Or.inr (List.mem_append.2 (Or.inr List.mem_cons_self)))⟩
  | noFrame payload => exact hsame
  | write payload frame => exact hposted _
  | writesDone => exact hposted _
  | poll len => exact progress_keeps ⟨id, Or.inr rfl⟩ id [] (by simp) (by simp)
  | read r => exact progress_keeps ⟨id, Or.inr rfl⟩ id [] (by simp) (by simp)
  | cancel => exact cancelActive_progress w
  | postCancel => exact hposted _
  | goaway lastStreamId => exact failActive_progress w _
  | spared lastStreamId => exact hsame
  | shutdown => exact failActive_progress w _

end StreamingCall

/-! ## Unary calls -/

namespace ClientCallState

/-- What a member function other than `ArmTimer` keeps: the context, a completed call, and the timer
of a call that it does not complete. -/
structure Keeps (c c' : ClientCallState) : Prop where
  ctx : c'.ctx = c.ctx
  completed : c.completed = true → c'.completed = true
  timer : c'.completed = true ∨ c'.timer = c.timer
  idle : c.timer = .idle → c'.timer = .idle

theorem Keeps.refl (c : ClientCallState) : Keeps c c := ⟨rfl, id, Or.inr rfl, id⟩

theorem complete_completed (c : ClientCallState) (r : UnaryResultRaw) :
    (c.complete r).1.completed = true := (UnaryCompletion.complete_flags c r).1

/-- `Complete`, after a change of the call that concerns none of these. -/
theorem keeps_complete {c d : ClientCallState} (r : UnaryResultRaw) (hctx : d.ctx = c.ctx)
    (htimer : d.timer = c.timer) : Keeps c (d.complete r).1 := by
  refine ⟨(UnaryCall.ctx_complete d r).trans hctx, fun _ => complete_completed d r,
    Or.inl (complete_completed d r), fun hidle => ?_⟩
  simp only [complete]
  split
  · exact htimer.trans hidle
  · simp [htimer, hidle, Timer.cancel]

theorem keeps_completeWith {c d : ClientCallState} (r : Option UnaryResultRaw)
    (hctx : d.ctx = c.ctx) (htimer : d.timer = c.timer) (hc : d.completed = c.completed) :
    Keeps c (d.completeWith r).1 := by
  cases r with
  | none => exact ⟨hctx, fun h => hc.trans h, Or.inr htimer, fun h => htimer.trans h⟩
  | some r => exact keeps_complete r hctx htimer

theorem keeps_attach (z : Zlib) (c : ClientCallState) (head : ResponseHead) :
    Keeps c (c.attach z head).1 := by
  simp only [attach]
  split
  · exact keeps_complete _ rfl rfl
  · exact ⟨rfl, id, Or.inr rfl, id⟩

theorem keeps_onData (c : ClientCallState) (chunk : Bytes) : Keeps c (c.onData chunk).1 := by
  simp only [onData]
  split
  · exact .refl c
  · exact keeps_completeWith _ rfl rfl rfl

theorem keeps_onTrailers (z : Zlib) (c : ClientCallState) (h : HeaderMap) :
    Keeps c (c.onTrailers z h).1 := by
  simp only [onTrailers]
  split
  · exact .refl c
  · exact keeps_completeWith _ rfl rfl rfl

end ClientCallState

/-- The thread is about to exchange the flag of the completion object. -/
def Pc.isExchange : Pc → Bool
  | .exchange _ => true
  | _ => false

namespace UnaryCall

/-- The call is completed, or a thread is on its way to complete it. -/
def Failing (u : UnaryCall) : Prop :=
  u.completed = true ∨ u.call.completed = true ∨ ∃ r, Pc.exchange r ∈ u.threads

instance (u : UnaryCall) : Decidable u.Failing :=
  have : Decidable (∃ r, Pc.exchange r ∈ u.threads) :=
    decidable_of_iff (u.threads.any Pc.isExchange = true) (by
      simp only [List.any_eq_true]
      constructor
      · rintro ⟨pc, hpc, hx⟩
        cases pc with
        | exchange r => exact ⟨r, hpc⟩
        | _ => cases hx
      · rintro ⟨r, hr⟩
        exact ⟨_, hr, rfl⟩)
  inferInstanceAs (Decidable (_ ∨ _ ∨ _))

/-- The call is ended, or its deadline is watched. -/
def Watched (u : UnaryCall) : Prop :=
  u.Failing ∨ u.call.timer ≠ .idle ∨ UnaryTask.deadline ∈ u.strand

/-- Nothing watches the deadline of a call whose timer was never armed. -/
def Unarmed (u : UnaryCall) : Prop :=
  u.call.timer = .idle ∧ UnaryTask.deadline ∉ u.strand

/-- What a step other than `ArmTimer` does to the context, the end of the call, a reset, and the
watch on the deadline. -/
structure Progress (u u' : UnaryCall) : Prop where
  ctx : u'.call.ctx = u.call.ctx
  completed : u.call.completed = true → u'.call.completed = true
  failing : u.Failing → u'.Failing
  reset : ResetIssued u'.trace → ResetIssued u.trace ∨ u'.call.completed = true
  watched : u.Watched → u'.Watched
  unarmed : u.Unarmed → u'.Unarmed
  ended : u'.phase = .done → u.phase = .done ∨ u'.Failing

/-- Threads that are not dropped keep a call failing. -/
theorem failing_keeps {u u' : UnaryCall} (hk : ClientCallState.Keeps u.call u'.call)
    (hc : u'.completed = u.completed) (ht : ∀ pc ∈ u.threads, pc ∈ u'.threads)
    (h : u.Failing) : u'.Failing := by
  rcases h with h | h | ⟨r, hr⟩
  · exact Or.inl (hc.trans h)
  · exact Or.inr (Or.inl (hk.completed h))
  · exact Or.inr (Or.inr ⟨r, ht _ hr⟩)

theorem failing_spawn (u : UnaryCall) (r : UnaryResultRaw) : (u.spawn (.exchange r)).Failing :=
  Or.inr (Or.inr ⟨r, List.mem_append.2 (Or.inr List.mem_cons_self)⟩)

/-- A step inside a member function. -/
theorem progress_keeps {u u' : UnaryCall} (hk : ClientCallState.Keeps u.call u'.call)
    (hf : u.Failing → u'.Failing)
    (hs : UnaryTask.deadline ∈ u'.strand ↔ UnaryTask.deadline ∈ u.strand)
    (hr : ResetIssued u'.trace → ResetIssued u.trace ∨ u'.call.completed = true)
    (hp : u'.phase = .done → u.phase = .done ∨ u'.Failing) : Progress u u' := by
  refine ⟨hk.ctx, hk.completed, hf, hr, fun hw => ?_,
    fun hu => ⟨hk.idle hu.1, fun h => hu.2 (hs.1 h)⟩, hp⟩
  rcases hk.timer with hc | htimer
  · exact Or.inl (Or.inr (Or.inl hc))
  · rcases hw with hw | hw | hw
    · exact Or.inl (hf hw)
    · exact Or.inr (Or.inl (htimer ▸ hw))
    · exact Or.inr (Or.inr (hs.2 hw))

/-- A step that changes neither the threads nor the submit closure. -/
theorem progress_call {u u' : UnaryCall} (hk : ClientCallState.Keeps u.call u'.call)
    (hc : u'.completed = u.completed) (ht : u'.threads = u.threads) (hph : u'.phase = u.phase)
    (hs : UnaryTask.deadline ∈ u'.strand ↔ UnaryTask.deadline ∈ u.strand)
    (hr : ResetIssued u'.trace → ResetIssued u.trace ∨ u'.call.completed = true) :
    Progress u u' :=
  progress_keeps hk (failing_keeps hk hc fun _ hpc => ht ▸ hpc) hs hr
    fun hp => Or.inl (hph ▸ hp)

/-- A step that only starts threads. -/
theorem progress_spawn {u u' : UnaryCall} (hcall : u'.call = u.call)
    (hc : u'.completed = u.completed) (ht : ∃ pcs, u'.threads = u.threads ++ pcs)
    (hs : u'.strand = u.strand) (htr : u'.trace = u.trace)
    (hp : u'.phase = .done → u.phase = .done ∨ u'.Failing) : Progress u u' := by
  obtain ⟨pcs, hpcs⟩ := ht
  have hk : ClientCallState.Keeps u.call u'.call := hcall ▸ .refl _
  apply progress_keeps hk _ (by rw [hs]) (fun hr => Or.inl (htr ▸ hr)) hp
  intro hf
  exact failing_keeps hk hc (fun pc hpc => hpcs ▸ List.mem_append.2 (Or.inl hpc)) hf

theorem deadline_mem_post {u : UnaryCall} {t : UnaryTask} (ht : t ≠ .deadline) :
    UnaryTask.deadline ∈ (u.post t).strand ↔ UnaryTask.deadline ∈ u.strand := by
  simp [post, ht.symm]

/-- The function stored in `cancel_stream_` completes the call with the reset. -/
theorem cancelOnStream_completed (u : UnaryCall) : u.cancelOnStream.call.completed = true :=
  ClientCallState.complete_completed _ _

theorem keeps_cancelOnStream (u : UnaryCall) :
    ClientCallState.Keeps u.call u.cancelOnStream.call :=
  ClientCallState.keeps_complete _ rfl rfl

theorem failActive_progress (u : UnaryCall) (s : Status) : Progress u (u.failActive s) := by
  simp only [failActive]
  split
  · exact progress_call (ClientCallState.keeps_complete _ rfl rfl) rfl rfl rfl Iff.rfl Or.inl
  · exact progress_call (.refl _) rfl rfl rfl Iff.rfl Or.inl

/-- An access of a thread: an exchange that ends passes the gate. -/
theorem stepThread_progress {u : UnaryCall} {i : Nat} {pc : Pc} (hi : u.threads[i]? = some pc) :
    Progress u (u.stepThread i pc) := by
  have hcall : (u.stepThread i pc).call = u.call := (stepThread_frame u i pc).2
  have hphase : (u.stepThread i pc).phase = u.phase := (stepThread_frame u i pc).1
  have hk : ClientCallState.Keeps u.call (u.stepThread i pc).call := hcall ▸ .refl _
  -- the access of another thread leaves an exchange where it is
  have hset : ∀ {x : Pc} {r : UnaryResultRaw}, (∀ q, pc ≠ .exchange q) →
      Pc.exchange r ∈ u.threads → Pc.exchange r ∈ u.threads.set i x := by
    intro x r hne hmem
    obtain ⟨j, hj⟩ := List.mem_iff_getElem?.1 hmem
    have hij : i ≠ j := by
      rintro rfl
      rw [hi] at hj
      exact hne r (Option.some.inj hj)
    apply List.mem_iff_getElem?.2
    exact ⟨j, by rw [List.getElem?_set_ne hij, hj]⟩
  have hfail : u.Failing → (u.stepThread i pc).Failing := by
    intro hf
    rcases hf with hf | hf | ⟨r, hr⟩
    · left
      cases pc with
      | invokeCancelStream copied => cases copied <;> exact hf
      | exchange q => simp [stepThread, hf]
      | _ => exact hf
    · exact Or.inr (Or.inl (hk.completed hf))
    · cases pc with
      | storeCancelled => exact Or.inr (Or.inr ⟨r, hset (by simp) hr⟩)
      | copyCancelStream => exact Or.inr (Or.inr ⟨r, hset (by simp) hr⟩)
      | invokeCancelStream copied =>
          cases copied <;> exact Or.inr (Or.inr ⟨r, hset (by simp) hr⟩)
      | exchange q =>
          left
          simp only [stepThread]
          split
          · assumption
          · rfl
      | clearCancelStream q => exact Or.inr (Or.inr ⟨r, hset (by simp) hr⟩)
      | postHandler q =>
          obtain ⟨j, hj⟩ := List.mem_iff_getElem?.1 hr
          have hij : j ≠ i := by
            rintro rfl
            rw [hi] at hj
            cases hj
          exact Or.inr (Or.inr ⟨r, List.mem_eraseIdx_iff_getElem?.2 ⟨j, hij, hj⟩⟩)
  refine progress_keeps hk hfail ?_ ?_ fun hp => Or.inl (hphase ▸ hp)
  · cases pc with
    | invokeCancelStream copied => cases copied <;> simp [stepThread, post]
    | exchange q =>
        simp only [stepThread]
        split <;> exact Iff.rfl
    | _ => exact Iff.rfl
  · intro hr
    left
    cases pc with
    | invokeCancelStream copied => cases copied <;> exact hr
    | exchange q =>
        simp only [stepThread] at hr
        split at hr <;> exact hr
    | postHandler q => exact resetIssued_append hr (by simp)
    | _ => exact hr

/-- The closure at the front of the strand runs. -/
theorem runTask_progress {z : Zlib} {u : UnaryCall} {t : UnaryTask} {rest : List UnaryTask}
    (hs : u.strand = t :: rest) : Progress u ({ u with strand := rest }.runTask z t) := by
  have hrest : t ≠ .deadline → (UnaryTask.deadline ∈ rest ↔ UnaryTask.deadline ∈ u.strand) := by
    intro hne
    rw [hs, List.mem_cons]
    exact ⟨Or.inr, fun h => h.resolve_left hne.symm⟩
  cases t with
  | data chunk =>
      exact progress_call (u.call.keeps_onData chunk) rfl rfl rfl (hrest (by simp)) Or.inl
  | trailers h =>
      refine progress_call (u.call.keeps_onTrailers z h) rfl rfl rfl (hrest (by simp)) ?_
      intro hr
      left
      apply resetIssued_append hr
      split
      · exact reset_not_mem_contextReads _
      · simp
  | close errorCode =>
      exact progress_call (ClientCallState.keeps_completeWith _ rfl rfl rfl) rfl rfl rfl
        (hrest (by simp)) Or.inl
  | cancel =>
      exact progress_call (keeps_cancelOnStream _) rfl rfl rfl (hrest (by simp))
        fun _ => Or.inr (cancelOnStream_completed _)
  | deadline =>
      have hk : ClientCallState.Keeps u.call
          (u.call.complete (UnaryResultRaw.of deadlineExceeded)).1 :=
        ClientCallState.keeps_complete _ rfl rfl
      have hcompleted := ClientCallState.complete_completed u.call
        (UnaryResultRaw.of deadlineExceeded)
      have hf : ({ u with strand := rest }.runTask z .deadline).Failing :=
        Or.inr (Or.inl hcompleted)
      refine ⟨hk.ctx, hk.completed, fun _ => hf, Or.inl, fun _ => Or.inl hf, fun hu => ?_, Or.inl⟩
      exact absurd (hs ▸ List.mem_cons_self) hu.2

/-- **Every step but `ArmTimer` keeps a failing call failing, keeps the watch on the deadline of the
others, and resets the stream only when it completes the call;** and the submit closure ends with
`ArmTimer` or with the call. -/
theorem progress_step {z : Zlib} {u u' : UnaryCall} {e : UnaryCallEvent}
    (h : step z u e = some u') (he : e ≠ .armTimer) : Progress u u' := by
  cases step_move h with
  | submitCheck o =>
      simp only [submitCheck]
      split
      · exact progress_spawn rfl rfl ⟨_, rfl⟩ rfl rfl fun _ => Or.inr (failing_spawn _ _)
      · cases o with
        | refused s =>
            exact progress_spawn rfl rfl ⟨_, rfl⟩ rfl rfl fun _ => Or.inr (failing_spawn _ _)
        | queued => exact progress_spawn rfl rfl ⟨[], by simp⟩ rfl rfl fun hp => by cases hp
        | proceed => exact progress_spawn rfl rfl ⟨[], by simp⟩ rfl rfl fun hp => by cases hp
  | failPending s =>
      exact progress_spawn rfl rfl ⟨_, rfl⟩ rfl rfl fun _ => Or.inr (failing_spawn _ _)
  | submitBuild o =>
      have hreads : ∀ {P : Prop}, ResetIssued (u.trace ++ contextReads u.call.ctx) →
          ResetIssued u.trace ∨ P :=
        fun hr => Or.inl (resetIssued_append hr (reset_not_mem_contextReads _))
      cases o with
      | invalid s =>
          have hk : ClientCallState.Keeps u.call (u.submitBuild (.invalid s)).call := .refl _
          have hf : (u.submitBuild (.invalid s)).Failing := failing_spawn _ _
          exact progress_keeps hk (fun _ => hf) Iff.rfl hreads fun _ => Or.inr hf
      | rejected s =>
          have hf : (u.submitBuild (.rejected s)).Failing :=
            Or.inr (Or.inl (ClientCallState.complete_completed _ _))
          exact progress_keeps (ClientCallState.keeps_complete _ rfl rfl) (fun _ => hf) Iff.rfl
            hreads fun _ => Or.inr hf
      | accepted id =>
          have hk : ClientCallState.Keeps u.call (u.submitBuild (.accepted id)).call := .refl _
          exact progress_keeps hk (failing_keeps hk rfl fun _ hpc => hpc) Iff.rfl hreads
            fun hp => by cases hp
  -- a cancellation waits for the stream
  | setCancelStream =>
      refine progress_spawn rfl rfl ⟨[], by simp⟩ rfl rfl ?_
      intro hp
      by_cases hc : u.cancelled = true <;> simp [hc] at hp
  | cancelSubmitted =>
      have hk := keeps_cancelOnStream { u with cancelled := true, phase := .arming }
      exact progress_keeps hk (failing_keeps (u := u) hk rfl fun _ => id) Iff.rfl
        (fun _ => Or.inr (cancelOnStream_completed _)) fun hp => by cases hp
  | cancelUnset => exact progress_spawn rfl rfl ⟨[], by simp⟩ rfl rfl fun hp => by cases hp
  | armTimer => exact absurd rfl he
  | response head => exact progress_call (u.call.keeps_attach z head) rfl rfl rfl Iff.rfl Or.inl
  | data chunk => exact progress_call (.refl _) rfl rfl rfl (deadline_mem_post (by simp)) Or.inl
  | trailers hd =>
      exact progress_call (.refl _) rfl rfl rfl (deadline_mem_post (u := u) (by simp)) Or.inl
  | close errorCode =>
      exact progress_call (.refl _) rfl rfl rfl (deadline_mem_post (u := u) (by simp))
        fun hr => Or.inl (resetIssued_append hr (by simp))
  | task t rest hs => exact runTask_progress hs
  | ioc i r => exact progress_spawn rfl rfl ⟨_, rfl⟩ rfl rfl Or.inl
  -- an unarmed timer does not expire
  | expire t ht =>
      obtain ⟨harmed, rfl⟩ := Timer.expire_eq_some ht
      refine ⟨rfl, id, id, Or.inl, fun _ => Or.inr (Or.inl (by simp)), fun hu => ?_, Or.inl⟩
      rw [hu.1] at harmed
      cases harmed
  | timerHandler t ht =>
      obtain ⟨hexpired, rfl⟩ := Timer.fire_eq_some ht
      refine ⟨rfl, id, id, Or.inl, fun _ => Or.inr (Or.inr ?_), fun hu => ?_, Or.inl⟩
      · exact List.mem_append.2 (Or.inr List.mem_cons_self)
      · rw [hu.1] at hexpired
        cases hexpired
  | cancel => exact progress_spawn rfl rfl ⟨_, rfl⟩ rfl rfl Or.inl
  -- a cancellation resets the stream only together with the call's completion
  | cancelOnStrand =>
      have hk := keeps_cancelOnStream { u with cancelled := true }
      exact progress_keeps hk (fun _ => failing_spawn _ _) Iff.rfl
        (fun _ => Or.inr (cancelOnStream_completed _)) Or.inl
  | cancelOnStrandUnset => exact progress_spawn rfl rfl ⟨_, rfl⟩ rfl rfl Or.inl
  | thread i pc hi => exact stepThread_progress hi
  | runHandler i r => exact progress_spawn rfl rfl ⟨[], by simp⟩ rfl rfl Or.inl
  | goaway lastStreamId => exact failActive_progress u _
  | spared lastStreamId => exact progress_call (.refl _) rfl rfl rfl Iff.rfl Or.inl
  | shutdown => exact failActive_progress u _

end UnaryCall

end Rpcpio.Client
