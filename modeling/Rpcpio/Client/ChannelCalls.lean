import Rpcpio.Client.CallState
import Rpcpio.Client.StreamingStatus

/-!
# The calls of a channel

What `ChannelImpl` holds of a call: for a unary call the control's flag, the call state and the
results with which the channel itself invoked the completion; for a streaming call the call state
and how often its handles were delivered. A call is *waiting* until the channel refuses or submits
it, and *settled* once its outcome has been produced or posted. `Sound` is what holds of every call
between two steps, and `Evolves` is what any step does to a call.
-/

set_option autoImplicit false

namespace Rpcpio.Client

open Rpcpio.Library Rpcpio.Protocol

/-! ## Unary calls -/

/-- A unary call given to `SubmitCall`: the flag of its `UnaryCallControl`, its call state with the
callbacks posted and invoked through it, and the results with which `completion` was invoked
directly. -/
structure SubmittedUnary where
  cancelled : Bool
  completion : UnaryCompletion
  direct : List UnaryResultRaw
  streamId : Option StreamId
  deriving DecidableEq, Repr

namespace SubmittedUnary

/-- A call that has just been given to the channel. -/
def new (ctx : Option ClientContext) : SubmittedUnary := ⟨false, UnaryCompletion.new ctx, [], none⟩

/-- The call after a member function that posts callbacks. -/
def after (u : SubmittedUnary) (r : ClientCallState × List UnaryResultRaw) : SubmittedUnary :=
  { u with completion := u.completion.after r }

/-- `completion(UnaryResultRaw{status})`. -/
def refuse (u : SubmittedUnary) (s : Status) : SubmittedUnary :=
  { u with direct := u.direct ++ [UnaryResultRaw.of s] }

/-- `call->Fail(status)`. -/
def fail (u : SubmittedUnary) (s : Status) : SubmittedUnary := u.after (u.completion.call.fail s)

/-- The stream is open: the timer is armed. -/
def accept (u : SubmittedUnary) (id : StreamId) : SubmittedUnary :=
  { u with
    completion := { u.completion with call := u.completion.call.armTimer }
    streamId := some id }

/-- `call->OnStreamClose(error_code)`. -/
def close (u : SubmittedUnary) (errorCode : Nat) : SubmittedUnary :=
  u.after (u.completion.call.onStreamClose errorCode)

/-- An event of the call itself: the session and the caller act on submitted calls only, and a
posted callback runs at any time. -/
def step (z : Zlib) (u : SubmittedUnary) : UnaryEvent → Option SubmittedUnary
  | .armTimer => none
  | .close _ => none
  | .fail _ => none
  | .runIoc i => (u.completion.step z (.runIoc i)).map fun c => { u with completion := c }
  | e =>
      if u.streamId.isSome then (u.completion.step z e).map fun c => { u with completion := c }
      else none

/-- The outcome has been produced or posted. -/
def settled (u : SubmittedUnary) : Bool := !u.direct.isEmpty || u.completion.call.completed

/-- `Fail` leaves a completed call as it is. -/
theorem fail_of_completed (u : SubmittedUnary) (hc : u.completion.call.completed = true)
    (s : Status) : u.fail s = u := by
  simp [fail, after, UnaryCompletion.after, ClientCallState.fail, ClientCallState.complete, hc]

/-- The number of times the completion has been invoked. -/
def completions (u : SubmittedUnary) : Nat := u.direct.length + u.completion.invoked.length

/-- Neither refused nor submitted. -/
structure Waiting (u : SubmittedUnary) : Prop where
  direct : u.direct = []
  open_ : u.completion.call.completed = false
  streamId : u.streamId = none

/-- What holds of a unary call between two steps of the channel. -/
structure Sound (u : SubmittedUnary) : Prop where
  gate : UnaryCompletion.CompletionInvariant u.completion
  answered : u.completion.call.completed = true →
    u.completion.ioc ++ u.completion.invoked ≠ []
  direct : u.direct = [] ∨
    (u.direct.length = 1 ∧ u.completion.call.completed = false ∧ u.streamId = none)

theorem sound_new (ctx : Option ClientContext) : (new ctx).Sound :=
  ⟨UnaryCompletion.completionInvariant_new ctx, (fun h => by cases h), Or.inl rfl⟩

theorem gateMove_ne_shut (z : Zlib) (u : UnaryCompletion) (e : UnaryEvent) :
    u.gateMove z e ≠ .shut := by
  cases ho : u.outcome z e with
  | some r =>
      simp only [UnaryCompletion.gateMove]
      rw [ho]
      intro h
      cases h
  | none =>
      rcases UnaryCompletion.gateMove_of_none ho with hm | ⟨i, hm⟩
      · rw [hm]
        intro h
        cases h
      · rw [hm]
        intro h
        cases h

/-- **Steps of the call state keep a call sound** if the channel has not answered it itself. -/
theorem Sound.completion {z : Zlib} {u : SubmittedUnary} {c : UnaryCompletion} {e : UnaryEvent}
    {id : Option StreamId} (h : u.Sound) (hd : u.direct = [])
    (hstep : u.completion.step z e = some c) :
    Sound ⟨u.cancelled, c, u.direct, id⟩ := by
  refine ⟨UnaryCompletion.completionInvariant_step h.gate hstep, ?_, Or.inl hd⟩
  exact Gate.move_answered (UnaryCompletion.step_gate hstep)
    (gateMove_ne_shut z u.completion e) h.answered

/-- A completed call state stays completed. -/
theorem completed_step {z : Zlib} {u c : UnaryCompletion} {e : UnaryEvent}
    (hstep : u.step z e = some c) (hc : u.call.completed = true) : c.call.completed = true :=
  Gate.move_closed (UnaryCompletion.step_gate hstep) hc

/-- A call that the channel answered itself has no stream and nothing to deliver. -/
theorem Sound.direct_of_active {u : SubmittedUnary} (h : u.Sound) {id : StreamId}
    (hid : u.streamId = some id) : u.direct = [] := by
  rcases h.direct with hd | ⟨_, _, hn⟩
  · exact hd
  · rw [hid] at hn
    cases hn

/-- **Every settled call delivers one result**: invoked, or posted to the `io_context`. -/
theorem Sound.completions_eq_one {u : SubmittedUnary} (h : u.Sound) (hs : u.settled = true) :
    u.completions + u.completion.ioc.length = 1 := by
  have honce := h.gate.once
  have hle := honce.le_one
  simp only [UnaryCompletion.gate] at hle
  rcases h.direct with hd | ⟨hlen, hopen, _⟩
  · simp only [settled, hd, List.isEmpty_nil, Bool.not_true, Bool.false_or] at hs
    have hne := List.length_pos_of_ne_nil (h.answered hs)
    rw [List.length_append] at hne
    simp only [completions, hd, List.length_nil]
    omega
  · obtain ⟨hp, hq⟩ := honce.open_none hopen
    simp only [UnaryCompletion.gate] at hp hq
    simp [completions, hlen, hp, hq]

/-- An event of the call is an event of its call state, and the channel has not answered the call
itself. -/
theorem Sound.step_cases {z : Zlib} {u u' : SubmittedUnary} {e : UnaryEvent} (h : u.Sound)
    (hstep : u.step z e = some u') :
    ∃ c, u.completion.step z e = some c ∧ u' = { u with completion := c } ∧ u.direct = [] := by
  cases e with
  | armTimer => cases hstep
  | close errorCode => cases hstep
  | fail s => cases hstep
  | runIoc i =>
      obtain ⟨c, hc, rfl⟩ := Option.map_eq_some_iff.1 hstep
      refine ⟨c, hc, rfl, ?_⟩
      rcases h.direct with hd | ⟨_, hopen, _⟩
      · exact hd
      · -- nothing is posted for a call that was answered directly
        have hioc : u.completion.ioc = [] := (h.gate.once.open_none hopen).1
        simp [UnaryCompletion.step, hioc] at hc
  | _ =>
      obtain ⟨hid, hmap⟩ := Option.ite_none_right_eq_some.1 hstep
      obtain ⟨c, hc, rfl⟩ := Option.map_eq_some_iff.1 hmap
      obtain ⟨id, hid⟩ := Option.isSome_iff_exists.1 hid
      exact ⟨c, hc, rfl, h.direct_of_active hid⟩

/-- Nothing happens to a waiting call by itself. -/
theorem Sound.step_waiting {z : Zlib} {u : SubmittedUnary} {e : UnaryEvent} (h : u.Sound)
    (hw : u.Waiting) : u.step z e = none := by
  have hioc : u.completion.ioc = [] := (h.gate.once.open_none hw.open_).1
  cases e <;> simp [step, hw.streamId, UnaryCompletion.step, hioc]

end SubmittedUnary

/-! ## Streaming calls -/

/-- The events of a streaming call other than its submission, its close and its failures by the
channel. -/
inductive StreamingEvent where
  | attach (head : ResponseHead)
  | data (chunk : Bytes)
  | trailers (h : HeaderMap)
  | cancel
  | deadline
  | expire
  | timerHandler
  | enqueue (frame : Bytes)
  | writesDone
  | poll (len : Nat)
  | read
  | runIoc (i : Nat)
  deriving DecidableEq, Repr

/-- A streaming call given to one of the three submit functions: its call state with the closures it
posted, and how often its handles were delivered to `completion`. -/
structure SubmittedStreaming where
  state : StreamingCallState
  ioc : List IocTask
  delivered : Nat
  streamId : Option StreamId
  deriving DecidableEq, Repr

/-- Every handle has `status_ready_` set. -/
def StreamingCallState.statusReady (c : StreamingCallState) : Bool :=
  c.reader.all (fun r => r.statusReady) && c.writer.all fun x => x.statusReady

theorem StreamingCallState.statusReady_eq (c : StreamingCallState) :
    c.statusReady =
      (c.statusView.1.all (fun v => v.1.isSome) && c.statusView.2.all Option.isSome) := by
  have hr : ∀ r : RawClientReaderImpl, r.finish.isSome = r.statusReady := by
    intro r
    cases h : r.statusReady <;> simp [RawClientReaderImpl.finish, h]
  have hw : ∀ x : RawClientWriterImpl, x.finish.isSome = x.statusReady := by
    intro x
    cases h : x.statusReady <;> simp [RawClientWriterImpl.finish, h]
  cases h1 : c.reader <;> cases h2 : c.writer <;>
    simp [statusReady, statusView, h1, h2, hr, hw]

/-- What leaves the view of the handles as it is leaves `status_ready_` as it is. -/
theorem StreamingCallState.statusReady_congr {c c' : StreamingCallState}
    (h : c'.statusView = c.statusView) : c'.statusReady = c.statusReady := by
  rw [statusReady_eq, statusReady_eq, h]

@[simp] theorem StreamingCallState.statusReady_setFinalStatus (c : StreamingCallState)
    (s : Status) :
    (c.setFinalStatus s).statusReady = true := by
  cases h1 : c.reader <;> cases h2 : c.writer <;>
    simp [setFinalStatus, statusReady, h1, h2, RawClientReaderImpl.setFinalStatus,
      RawClientWriterImpl.setFinalStatus]

namespace SubmittedStreaming

/-- A call that has just been given to the channel. -/
def new (kind : CallKind) (ctx : Option ClientContext) : SubmittedStreaming :=
  ⟨kind.callState ctx, [], 0, none⟩

/-- The call after a member function that posts closures. -/
def after (t : SubmittedStreaming) (r : StreamingCallState × List IocTask) : SubmittedStreaming :=
  { t with state := r.1, ioc := t.ioc ++ r.2 }

/-- `call->Fail(status)`. -/
def fail (t : SubmittedStreaming) (s : Status) : SubmittedStreaming := t.after (t.state.fail s)

/-- `call->Fail(status)`, then `completion` with the handles. -/
def refuse (t : SubmittedStreaming) (s : Status) : SubmittedStreaming :=
  { t.fail s with delivered := t.delivered + 1 }

/-- The stream is open: the writer knows its request, the timer is armed, and `completion` has the
handles. -/
def accept (t : SubmittedStreaming) (id : StreamId) : SubmittedStreaming :=
  let c : StreamingCallState :=
    { t.state with writer := t.state.writer.map fun x => { x with req := some id } }
  { t with state := c.armTimer, streamId := some id, delivered := t.delivered + 1 }

/-- `call->OnStreamClose(error_code)`. -/
def close (t : SubmittedStreaming) (errorCode : Nat) : SubmittedStreaming :=
  t.after (t.state.onStreamClose errorCode)

/-- The writer after one of its closures. -/
def onWriter (t : SubmittedStreaming) (f : RawClientWriterImpl → RawClientWriterImpl) :
    SubmittedStreaming :=
  { t with state := { t.state with writer := t.state.writer.map f } }

/-- An event of the call itself: the session acts on submitted calls, the application on delivered
handles, and a posted closure runs at any time. -/
def step (t : SubmittedStreaming) : StreamingEvent → Option SubmittedStreaming
  | .attach head =>
      if t.streamId.isSome then
        some (t.after ((t.state.attach head).1, (t.state.attach head).2.1))
      else none
  | .data chunk =>
      if t.streamId.isSome then
        some (t.after (t.state.onData (maxReceiveMessageSize t.state.ctx) chunk))
      else none
  | .trailers h =>
      if t.streamId.isSome then some { t with state := t.state.onTrailers h } else none
  | .cancel => if t.streamId.isSome then some (t.after t.state.cancel) else none
  | .deadline => if t.streamId.isSome then some (t.fail deadlineExceeded) else none
  | .expire => t.state.timer.expire.map fun x => { t with state := { t.state with timer := x } }
  | .timerHandler => t.state.timer.fire.map fun x => { t with state := { t.state with timer := x } }
  | .enqueue frame =>
      if 0 < t.delivered then some (t.onWriter fun x => (x.enqueueOnStrand frame).1) else none
  | .writesDone =>
      if 0 < t.delivered then some (t.onWriter fun x => x.writesDoneOnStrand.1) else none
  | .poll len =>
      if t.streamId.isSome then some (t.onWriter fun x => (x.clientWriterGenerator len).1) else none
  | .read =>
      if 0 < t.delivered then
        some { t with state := { t.state with reader := t.state.reader.map fun r => r.read.1 } }
      else none
  | .runIoc i =>
      t.ioc[i]?.map fun task => { t with state := t.state.runIoc task, ioc := t.ioc.eraseIdx i }

/-- The outcome has been produced or posted. -/
def settled (t : SubmittedStreaming) : Bool := t.state.closed || t.state.trailersDone

/-- What holds of a streaming call between two steps of the channel: delivered trailers have set the
status, and a closed call has set it or has posted the closure that will. -/
structure Sound (t : SubmittedStreaming) : Prop where
  trailers : t.state.trailersDone = true → t.state.statusReady = true
  closed : t.state.closed = true →
    t.state.statusReady = true ∨ ∃ task ∈ t.ioc, (pendingStatus task).isSome = true
  delivered : t.delivered ≤ 1
  untouched : t.delivered = 0 →
    t.state.closed = false ∧ t.state.trailersDone = false ∧ t.ioc = [] ∧ t.streamId = none

theorem sound_new (kind : CallKind) (ctx : Option ClientContext) : (new kind ctx).Sound := by
  cases kind <;>
    exact ⟨(fun h => by cases h), (fun h => by cases h), Nat.zero_le 1,
      fun _ => ⟨rfl, rfl, rfl, rfl⟩⟩

/-- A member function that posts closures and leaves the status of the handles as it is. -/
theorem Sound.post {t : SubmittedStreaming} {c : StreamingCallState} {tasks : List IocTask}
    {n : Nat}
    {id : Option StreamId} (h : t.Sound) (hr : c.statusReady = t.state.statusReady)
    (ht : c.trailersDone = t.state.trailersDone)
    (hc : c.closed = true → t.state.closed = true ∨ t.state.statusReady = true ∨
      ∃ task ∈ tasks, (pendingStatus task).isSome = true)
    (hn : 0 < n ∧ n ≤ 1) : Sound ⟨c, t.ioc ++ tasks, n, id⟩ := by
  refine ⟨fun hd => ?_, fun hclosed => ?_, hn.2, fun h0 => absurd h0 (Nat.ne_of_gt hn.1)⟩
  · exact hr.trans (h.trailers (ht.symm.trans hd))
  · rcases hc hclosed with hold | hready | ⟨task, hmem, hp⟩
    · rcases h.closed hold with hready | ⟨task, hmem, hp⟩
      · exact Or.inl (hr.trans hready)
      · exact Or.inr ⟨task, List.mem_append_left _ hmem, hp⟩
    · exact Or.inl (hr.trans hready)
    · exact Or.inr ⟨task, List.mem_append_right _ hmem, hp⟩

/-- A step that publishes the status. -/
theorem sound_of_statusReady {t : SubmittedStreaming} (hr : t.state.statusReady = true)
    (hn : 0 < t.delivered ∧ t.delivered ≤ 1) : t.Sound :=
  ⟨fun _ => hr, fun _ => Or.inl hr, hn.2, fun h0 => absurd h0 (by omega)⟩

theorem delivered_pos_of_streamId {t : SubmittedStreaming} (h : t.Sound)
    (hid : t.streamId.isSome = true) : 0 < t.delivered := by
  apply Nat.pos_of_ne_zero
  intro h0
  rw [(h.untouched h0).2.2.2] at hid
  cases hid

/-- What `Fail` closes, it has posted for, or it was closed before. -/
theorem fail_posts (c : StreamingCallState) (s : Status) :
    c.closed = true ∨ ∃ task ∈ (c.fail s).2, (pendingStatus task).isSome = true := by
  by_cases hc : c.closed = true
  · exact Or.inl hc
  · refine Or.inr ⟨.failed s, ?_, rfl⟩
    simp [StreamingCallState.fail, hc]

/-- `Fail` on the call state, seen from a call of which it is a later state. -/
theorem Sound.failed {t : SubmittedStreaming} {c : StreamingCallState} {n : Nat}
    {id : Option StreamId} (h : t.Sound) (s : Status) (hr : c.statusReady = t.state.statusReady)
    (ht : c.trailersDone = t.state.trailersDone) (hc : c.closed = t.state.closed)
    (hn : 0 < n ∧ n ≤ 1) : Sound ⟨(c.fail s).1, t.ioc ++ (c.fail s).2, n, id⟩ := by
  refine h.post ?_ ?_ (fun _ => ?_) hn
  · rw [← hr]
    exact StreamingCallState.statusReady_congr (StreamingCallState.statusView_fail c s)
  · rw [StreamingCallState.trailersDone_fail, ht]
  · rcases fail_posts c s with hclosed | hposted
    · exact Or.inl (hc ▸ hclosed)
    · exact Or.inr (Or.inr hposted)

theorem Sound.closes {t : SubmittedStreaming} (h : t.Sound) (errorCode : Nat)
    (hn : 0 < t.delivered) : (t.close errorCode).Sound := by
  refine h.post ?_ ?_ (fun _ => ?_) ⟨hn, h.delivered⟩
  · exact StreamingCallState.statusReady_congr
      (StreamingCallState.statusView_onStreamClose t.state errorCode)
  · exact StreamingCallState.trailersDone_onStreamClose t.state errorCode
  · by_cases hc : t.state.closed = true
    · exact Or.inl hc
    · by_cases hd : t.state.trailersDone = true
      · exact Or.inr (Or.inl (h.trailers hd))
      · refine Or.inr (Or.inr ⟨.streamClosed errorCode false, ?_, rfl⟩)
        simp [StreamingCallState.onStreamClose, hc, hd]

/-- The steps that change only what neither the outcome nor the closures depend on. -/
theorem Sound.congr {t : SubmittedStreaming} {c : StreamingCallState} {id : Option StreamId}
    (h : t.Sound) (hr : c.statusReady = t.state.statusReady)
    (ht : c.trailersDone = t.state.trailersDone) (hc : c.closed = t.state.closed)
    (hid : t.delivered = 0 → id = none) : Sound ⟨c, t.ioc, t.delivered, id⟩ := by
  refine ⟨fun hd => ?_, fun hclosed => ?_, h.delivered, fun h0 => ?_⟩
  · exact hr.trans (h.trailers (ht.symm.trans hd))
  · rcases h.closed (hc.symm.trans hclosed) with hready | hposted
    · exact Or.inl (hr.trans hready)
    · exact Or.inr hposted
  · obtain ⟨h1, h2, h3, _⟩ := h.untouched h0
    exact ⟨hc.trans h1, ht.trans h2, h3, hid h0⟩

theorem Sound.onWriter {t : SubmittedStreaming} (h : t.Sound)
    {f : RawClientWriterImpl → RawClientWriterImpl} (hf : ∀ x, (f x).finish = x.finish) :
    (t.onWriter f).Sound := by
  refine h.congr ?_ rfl rfl fun h0 => (h.untouched h0).2.2.2
  exact StreamingCallState.statusReady_congr (StreamingCallState.statusView_mapWriter t.state hf)

theorem Sound.attach {t : SubmittedStreaming} (h : t.Sound) (head : ResponseHead)
    (hn : 0 < t.delivered) :
    (t.after ((t.state.attach head).1, (t.state.attach head).2.1)).Sound := by
  simp only [StreamingCallState.attach]
  split
  · exact h.failed _ rfl rfl rfl ⟨hn, h.delivered⟩
  · exact h.post rfl rfl Or.inl ⟨hn, h.delivered⟩
  · exact h.post rfl rfl Or.inl ⟨hn, h.delivered⟩

theorem Sound.onData {t : SubmittedStreaming} (h : t.Sound) (maxMsgSize : Nat) (chunk : Bytes)
    (hn : 0 < t.delivered) : (t.after (t.state.onData maxMsgSize chunk)).Sound := by
  unfold StreamingCallState.onData
  split
  · exact h.post rfl rfl Or.inl ⟨hn, h.delivered⟩
  · have hview := StreamingCallState.statusReady_congr
      (StreamingCallState.statusView_foldl_deliver
        { t.state with lpm := (t.state.lpm.feed maxMsgSize chunk).parser }
        (t.state.lpm.feed maxMsgSize chunk).messages)
    have htrailers := StreamingCallState.trailersDone_foldl_deliver
      { t.state with lpm := (t.state.lpm.feed maxMsgSize chunk).parser }
      (t.state.lpm.feed maxMsgSize chunk).messages
    have hclosed := StreamingCall.closed_foldl_deliver
      { t.state with lpm := (t.state.lpm.feed maxMsgSize chunk).parser }
      (t.state.lpm.feed maxMsgSize chunk).messages
    dsimp only
    split
    · exact h.post hview htrailers (fun hc => Or.inl (hclosed.symm.trans hc)) ⟨hn, h.delivered⟩
    · exact h.failed _ hview htrailers hclosed ⟨hn, h.delivered⟩

theorem Sound.onTrailers {t : SubmittedStreaming} (h : t.Sound) (trailers : HeaderMap)
    (hn : 0 < t.delivered) :
    Sound { t with state := t.state.onTrailers trailers } := by
  simp only [StreamingCallState.onTrailers]
  split
  · exact h
  · exact sound_of_statusReady (StreamingCallState.statusReady_setFinalStatus _ _)
      ⟨hn, h.delivered⟩

/-- A posted closure runs: it publishes, or nobody depends on it. -/
theorem Sound.runIoc {t : SubmittedStreaming} {i : Nat} {task : IocTask} (h : t.Sound)
    (hi : t.ioc[i]? = some task) :
    Sound { t with state := t.state.runIoc task, ioc := t.ioc.eraseIdx i } := by
  have hmem : task ∈ t.ioc := List.mem_of_getElem? hi
  have hn : 0 < t.delivered := by
    apply Nat.pos_of_ne_zero
    intro h0
    rw [(h.untouched h0).2.2.1] at hmem
    cases hmem
  -- a closure that publishes nothing is not the one that a closed call waits for
  have hskip : pendingStatus task = none → Sound { t with ioc := t.ioc.eraseIdx i } := by
    intro hquiet
    refine ⟨h.trailers, fun hclosed => ?_, h.delivered, fun h0 => absurd h0 (Nat.ne_of_gt hn)⟩
    rcases h.closed hclosed with hready | ⟨other, hother, hp⟩
    · exact Or.inl hready
    · refine Or.inr ⟨other, ?_, hp⟩
      obtain ⟨j, hj⟩ := List.mem_iff_getElem?.1 hother
      have hne : j ≠ i := by
        rintro rfl
        rw [hi, Option.some.injEq] at hj
        rw [← hj, hquiet] at hp
        cases hp
      exact List.mem_eraseIdx_iff_getElem?.2 ⟨j, hne, hj⟩
  cases task with
  | failed s =>
      exact sound_of_statusReady (StreamingCallState.statusReady_setFinalStatus _ _)
        ⟨hn, h.delivered⟩
  | streamClosed errorCode trailersDone =>
      cases trailersDone with
      | false =>
          exact sound_of_statusReady (StreamingCallState.statusReady_setFinalStatus _ _)
            ⟨hn, h.delivered⟩
      | true => exact hskip rfl
  | trailersOnly s =>
      by_cases hc : t.state.closed = true
      · simp only [StreamingCallState.runIoc, if_pos hc]
        exact hskip rfl
      · simp only [StreamingCallState.runIoc, if_neg hc]
        exact sound_of_statusReady (StreamingCallState.statusReady_setFinalStatus _ _)
          ⟨hn, h.delivered⟩

/-- **Every event of a call keeps it sound.** -/
theorem Sound.step {t t' : SubmittedStreaming} {e : StreamingEvent} (h : t.Sound)
    (hstep : t.step e = some t') : t'.Sound := by
  cases e with
  | attach head =>
      obtain ⟨hid, heq⟩ := Option.ite_none_right_eq_some.1 hstep
      cases heq
      -- a callback of the stream comes only after the handles were delivered
      exact h.attach head (delivered_pos_of_streamId h hid)
  | data chunk =>
      obtain ⟨hid, heq⟩ := Option.ite_none_right_eq_some.1 hstep
      cases heq
      exact h.onData _ chunk (delivered_pos_of_streamId h hid)
  | trailers hd =>
      obtain ⟨hid, heq⟩ := Option.ite_none_right_eq_some.1 hstep
      cases heq
      exact h.onTrailers hd (delivered_pos_of_streamId h hid)
  | cancel =>
      obtain ⟨hid, heq⟩ := Option.ite_none_right_eq_some.1 hstep
      cases heq
      exact h.failed callCancelled rfl rfl rfl ⟨delivered_pos_of_streamId h hid, h.delivered⟩
  | deadline =>
      obtain ⟨hid, heq⟩ := Option.ite_none_right_eq_some.1 hstep
      cases heq
      exact h.failed deadlineExceeded rfl rfl rfl ⟨delivered_pos_of_streamId h hid, h.delivered⟩
  | expire =>
      obtain ⟨x, _, rfl⟩ := Option.map_eq_some_iff.1 hstep
      exact h.congr rfl rfl rfl fun h0 => (h.untouched h0).2.2.2
  | timerHandler =>
      obtain ⟨x, _, rfl⟩ := Option.map_eq_some_iff.1 hstep
      exact h.congr rfl rfl rfl fun h0 => (h.untouched h0).2.2.2
  | enqueue frame =>
      obtain ⟨_, heq⟩ := Option.ite_none_right_eq_some.1 hstep
      cases heq
      -- the writer has a queue of its own, which no status depends on
      exact h.onWriter fun x => rfl
  | writesDone =>
      obtain ⟨_, heq⟩ := Option.ite_none_right_eq_some.1 hstep
      cases heq
      exact h.onWriter fun x => rfl
  | poll len =>
      obtain ⟨_, heq⟩ := Option.ite_none_right_eq_some.1 hstep
      cases heq
      exact h.onWriter fun x => x.finish_clientWriterGenerator len
  | read =>
      obtain ⟨_, heq⟩ := Option.ite_none_right_eq_some.1 hstep
      cases heq
      refine h.congr ?_ rfl rfl fun h0 => (h.untouched h0).2.2.2
      simp only [StreamingCallState.statusReady]
      cases t.state.reader <;> rfl
  | runIoc i =>
      obtain ⟨task, hi, rfl⟩ := Option.map_eq_some_iff.1 hstep
      exact h.runIoc hi

/-- An event neither delivers the handles again nor moves the call to another stream. -/
theorem step_frame {t t' : SubmittedStreaming} {e : StreamingEvent} (hstep : t.step e = some t') :
    t'.delivered = t.delivered ∧ t'.streamId = t.streamId := by
  cases e with
  | expire =>
      obtain ⟨x, _, rfl⟩ := Option.map_eq_some_iff.1 hstep
      exact ⟨rfl, rfl⟩
  | timerHandler =>
      obtain ⟨x, _, rfl⟩ := Option.map_eq_some_iff.1 hstep
      exact ⟨rfl, rfl⟩
  | runIoc i =>
      obtain ⟨task, hi, rfl⟩ := Option.map_eq_some_iff.1 hstep
      exact ⟨rfl, rfl⟩
  | _ =>
      obtain ⟨_, heq⟩ := Option.ite_none_right_eq_some.1 hstep
      cases heq
      exact ⟨rfl, rfl⟩

/-- `Fail` leaves a closed call as it is. -/
theorem fail_of_closed (t : SubmittedStreaming) (hc : t.state.closed = true) (s : Status) :
    t.fail s = t := by
  simp [fail, after, StreamingCallState.fail, hc]

theorem settled_fail (t : SubmittedStreaming) (s : Status) : (t.fail s).settled = true := by
  simp [settled, fail, after, StreamingCallState.fail_closed]

/-- Member functions that keep `closed_` and `trailers_done_` keep a call settled. -/
theorem settled_mono {c c' : StreamingCallState} (hc : c.closed = true → c'.closed = true)
    (ht : c.trailersDone = true → c'.trailersDone = true)
    (h : (c.closed || c.trailersDone) = true) : (c'.closed || c'.trailersDone) = true := by
  rcases Bool.or_eq_true_iff.1 h with h | h
  · exact Bool.or_eq_true_iff.2 (Or.inl (hc h))
  · exact Bool.or_eq_true_iff.2 (Or.inr (ht h))

theorem settled_close {t : SubmittedStreaming} (errorCode : Nat) :
    (t.close errorCode).settled = true := by
  have hc : (t.state.onStreamClose errorCode).1.closed = true := by
    by_cases h : t.state.closed = true <;> simp [StreamingCallState.onStreamClose, h]
  simp [settled, close, after, hc]

/-- **A settled call stays settled.** -/
theorem settled_step {t t' : SubmittedStreaming} {e : StreamingEvent} (hstep : t.step e = some t')
    (h : t.settled = true) : t'.settled = true := by
  cases e with
  | attach head =>
      obtain ⟨_, heq⟩ := Option.ite_none_right_eq_some.1 hstep
      cases heq
      -- a head can close the call, and never opens it again
      simp only [settled, after, StreamingCallState.attach] at h ⊢
      split
      · simp [StreamingCallState.fail_closed]
      · exact h
      · exact h
  | data chunk =>
      obtain ⟨_, heq⟩ := Option.ite_none_right_eq_some.1 hstep
      cases heq
      refine settled_mono (fun hc => ?_) (fun ht => ?_) h
      · simp only [after, StreamingCallState.onData, if_pos hc]
        exact hc
      · simp only [after, StreamingCallState.trailersDone_onData]
        exact ht
  | trailers hd =>
      obtain ⟨_, heq⟩ := Option.ite_none_right_eq_some.1 hstep
      cases heq
      simp only [settled, StreamingCallState.onTrailers] at h ⊢
      split
      · exact h
      · simp [StreamingCallState.maybeDeliverStatus, StreamingCallState.setFinalStatus]
  | cancel =>
      obtain ⟨_, heq⟩ := Option.ite_none_right_eq_some.1 hstep
      cases heq
      exact settled_fail t callCancelled
  | deadline =>
      obtain ⟨_, heq⟩ := Option.ite_none_right_eq_some.1 hstep
      cases heq
      exact settled_fail t deadlineExceeded
  | expire =>
      obtain ⟨x, _, rfl⟩ := Option.map_eq_some_iff.1 hstep
      exact h
  | timerHandler =>
      obtain ⟨x, _, rfl⟩ := Option.map_eq_some_iff.1 hstep
      exact h
  | runIoc i =>
      obtain ⟨task, _, rfl⟩ := Option.map_eq_some_iff.1 hstep
      -- of the closures only that of a trailers-only head touches a flag, and it sets both
      cases task with
      | failed s => exact h
      | streamClosed errorCode trailersDone => cases trailersDone <;> exact h
      | trailersOnly s =>
          simp only [settled, StreamingCallState.runIoc] at h ⊢
          split
          · exact h
          · simp [StreamingCallState.maybeDeliverStatus, StreamingCallState.setFinalStatus]
  | _ =>
      obtain ⟨_, heq⟩ := Option.ite_none_right_eq_some.1 hstep
      cases heq
      exact h

/-- **With all its closures run, a settled call has set the status of its handles.** -/
theorem Sound.statusReady_of_settled {t : SubmittedStreaming} (h : t.Sound)
    (hs : t.settled = true) (hioc : t.ioc = []) : t.state.statusReady = true := by
  rcases Bool.or_eq_true_iff.1 hs with hc | ht
  · rcases h.closed hc with hready | ⟨task, hmem, _⟩
    · exact hready
    · rw [hioc] at hmem
      cases hmem
  · exact h.trailers ht

end SubmittedStreaming

/-! ## Calls of either kind -/

/-- A call given to the channel. -/
inductive ChannelCall where
  | unary (u : SubmittedUnary)
  | streaming (t : SubmittedStreaming)
  deriving DecidableEq, Repr

namespace ChannelCall

/-- Whether `SubmitCall` took it. -/
def isUnary : ChannelCall → Bool
  | .unary _ => true
  | .streaming _ => false

/-- The stream of a submitted call. -/
def streamId : ChannelCall → Option StreamId
  | .unary u => u.streamId
  | .streaming t => t.streamId

/-- The outcome has been produced or posted. -/
def settled : ChannelCall → Bool
  | .unary u => u.settled
  | .streaming t => t.settled

/-- `control && control->cancelled()`. -/
def cancelled : ChannelCall → Bool
  | .unary u => u.cancelled
  | .streaming _ => false

/-- `call->Fail(status)` of a submitted call. -/
def fail (s : Status) : ChannelCall → ChannelCall
  | .unary u => .unary (u.fail s)
  | .streaming t => .streaming (t.fail s)

/-- The submit closure answers the call itself. -/
def refuse (s : Status) : ChannelCall → ChannelCall
  | .unary u => .unary (u.refuse s)
  | .streaming t => .streaming (t.refuse s)

/-- The session rejects the stream; a unary call is failed through its call state. -/
def reject (s : Status) : ChannelCall → ChannelCall
  | .unary u => .unary (u.fail s)
  | .streaming t => .streaming (t.refuse s)

/-- The session accepts the stream. -/
def accept (id : StreamId) : ChannelCall → ChannelCall
  | .unary u => .unary (u.accept id)
  | .streaming t => .streaming (t.accept id)

/-- `call->OnStreamClose(error_code)`. -/
def close (errorCode : Nat) : ChannelCall → ChannelCall
  | .unary u => .unary (u.close errorCode)
  | .streaming t => .streaming (t.close errorCode)

/-- `cancelled_` of the control is stored. -/
def storeCancelled : ChannelCall → ChannelCall
  | .unary u => .unary { u with cancelled := true }
  | .streaming t => .streaming t

/-- The closures that the call posted to the `io_context` have run. -/
def drained : ChannelCall → Bool
  | .unary u => u.completion.ioc.isEmpty
  | .streaming t => t.ioc.isEmpty

/-- Neither refused nor submitted. -/
def Waiting : ChannelCall → Prop
  | .unary u => u.Waiting
  | .streaming t => t.delivered = 0

/-- What holds of a call between two steps of the channel. -/
def Sound : ChannelCall → Prop
  | .unary u => u.Sound
  | .streaming t => t.Sound

/-- The outcome of the call is the failure with `s`: it is the one result of a unary call, posted or
invoked, or a streaming call is closed and has posted the closure that publishes it. -/
def FailedWith (s : Status) : ChannelCall → Prop
  | .unary u => u.completion.gate.Decided (UnaryResultRaw.of s)
  | .streaming t => t.state.closed = true ∧ IocTask.failed s ∈ t.ioc

/-- Every completion has been invoked exactly once and every handle has `status_ready_` set. -/
def Answered : ChannelCall → Prop
  | .unary u => u.completions = 1
  | .streaming t => t.delivered = 1 ∧ t.state.statusReady = true

/-- What any step does to a call: it keeps its kind and its stream, and it stays settled. -/
structure Evolves (c c' : ChannelCall) : Prop where
  kind : c'.isUnary = c.isUnary
  settled : c.settled = true → c'.settled = true
  stream : ∀ id, c.streamId = some id → c'.streamId = some id

namespace Evolves

variable {c c' c'' : ChannelCall}

theorem refl (c : ChannelCall) : Evolves c c := ⟨rfl, id, fun _ h => h⟩

theorem trans (h : Evolves c c') (h' : Evolves c' c'') : Evolves c c'' :=
  ⟨h'.kind.trans h.kind, fun hs => h'.settled (h.settled hs),
    fun id hid => h'.stream id (h.stream id hid)⟩

end Evolves

variable {c : ChannelCall}

@[simp] theorem isUnary_fail (s : Status) : (c.fail s).isUnary = c.isUnary := by cases c <;> rfl

@[simp] theorem isUnary_refuse (s : Status) : (c.refuse s).isUnary = c.isUnary := by
  cases c <;> rfl

@[simp] theorem isUnary_reject (s : Status) : (c.reject s).isUnary = c.isUnary := by
  cases c <;> rfl

@[simp] theorem isUnary_accept (id : StreamId) : (c.accept id).isUnary = c.isUnary := by
  cases c <;> rfl

@[simp] theorem isUnary_close (errorCode : Nat) : (c.close errorCode).isUnary = c.isUnary := by
  cases c <;> rfl

@[simp] theorem streamId_fail (s : Status) : (c.fail s).streamId = c.streamId := by cases c <;> rfl

@[simp] theorem streamId_refuse (s : Status) : (c.refuse s).streamId = c.streamId := by
  cases c <;> rfl

@[simp] theorem streamId_reject (s : Status) : (c.reject s).streamId = c.streamId := by
  cases c <;> rfl

@[simp] theorem streamId_accept (id : StreamId) : (c.accept id).streamId = some id := by
  cases c <;> rfl

@[simp] theorem streamId_close (errorCode : Nat) : (c.close errorCode).streamId = c.streamId := by
  cases c <;> rfl

theorem Waiting.streamId_eq_none (h : c.Waiting) (hs : c.Sound) : c.streamId = none := by
  cases c with
  | unary u => exact SubmittedUnary.Waiting.streamId h
  | streaming t => exact (SubmittedStreaming.Sound.untouched hs h).2.2.2

/-- `Fail` settles a call. -/
theorem settled_fail (c : ChannelCall) (s : Status) : (c.fail s).settled = true := by
  cases c with
  | unary u =>
      have hc := (UnaryCompletion.complete_flags u.completion.call (UnaryResultRaw.of s)).1
      simp [fail, settled, SubmittedUnary.fail, SubmittedUnary.settled, SubmittedUnary.after,
        UnaryCompletion.after, ClientCallState.fail, hc]
  | streaming t => exact t.settled_fail s

theorem settled_refuse (c : ChannelCall) (s : Status) : (c.refuse s).settled = true := by
  cases c with
  | unary u => simp [refuse, settled, SubmittedUnary.refuse, SubmittedUnary.settled]
  | streaming t => exact t.settled_fail s

theorem settled_reject (c : ChannelCall) (s : Status) : (c.reject s).settled = true := by
  cases c with
  | unary u => exact (ChannelCall.unary u).settled_fail s
  | streaming t => exact t.settled_fail s

/-- A closed stream settles its call. -/
theorem Sound.settled_close (h : c.Sound) (errorCode : Nat) :
    (c.close errorCode).settled = true := by
  cases c with
  | unary u =>
      have hstep : u.completion.step Zlib.none (.close errorCode) =
        some (u.completion.after (u.completion.call.onStreamClose errorCode)) := rfl
      have hc := UnaryCompletion.close_completes (SubmittedUnary.Sound.gate h) hstep
      simp only [close, settled, SubmittedUnary.close, SubmittedUnary.after,
        SubmittedUnary.settled, hc, Bool.or_true]
  | streaming t => exact SubmittedStreaming.settled_close errorCode

theorem evolves_fail (c : ChannelCall) (s : Status) : Evolves c (c.fail s) :=
  ⟨isUnary_fail s, fun _ => settled_fail c s, fun _ h => (streamId_fail s).trans h⟩

theorem evolves_refuse (c : ChannelCall) (s : Status) : Evolves c (c.refuse s) :=
  ⟨isUnary_refuse s, fun _ => settled_refuse c s, fun _ h => (streamId_refuse s).trans h⟩

theorem evolves_reject (c : ChannelCall) (s : Status) : Evolves c (c.reject s) :=
  ⟨isUnary_reject s, fun _ => settled_reject c s, fun _ h => (streamId_reject s).trans h⟩

theorem Waiting.evolves_accept (h : c.Waiting) (hs : c.Sound) (id : StreamId) :
    Evolves c (c.accept id) := by
  refine ⟨isUnary_accept id, fun hset => ?_, fun id' hid => ?_⟩
  · cases c <;> exact hset
  · rw [h.streamId_eq_none hs] at hid
    cases hid

theorem Sound.evolves_close (h : c.Sound) (errorCode : Nat) : Evolves c (c.close errorCode) :=
  ⟨isUnary_close errorCode, fun _ => h.settled_close errorCode,
    fun _ hid => (streamId_close errorCode).trans hid⟩

theorem evolves_storeCancelled (c : ChannelCall) : Evolves c c.storeCancelled := by
  cases c <;> exact ⟨rfl, fun h => h, fun _ h => h⟩

/-- A submitted call that is failed stays sound. -/
theorem Sound.fail (h : c.Sound) {id : StreamId} (hid : c.streamId = some id) (s : Status) :
    (c.fail s).Sound := by
  cases c with
  | unary u =>
      have hd := SubmittedUnary.Sound.direct_of_active h hid
      exact SubmittedUnary.Sound.completion (z := Zlib.none) (e := .fail s) h hd rfl
  | streaming t =>
      have hn := SubmittedStreaming.delivered_pos_of_streamId h
        (by rw [show t.streamId = _ from hid]; rfl)
      exact SubmittedStreaming.Sound.failed h s rfl rfl rfl
        ⟨hn, SubmittedStreaming.Sound.delivered h⟩

/-- A waiting call may be refused. -/
theorem Waiting.refuse (hw : c.Waiting) (h : c.Sound) (s : Status) : (c.refuse s).Sound := by
  cases c with
  | unary u =>
      obtain ⟨hd, hopen, hid⟩ := hw
      have hu : u.Sound := h
      refine ⟨hu.gate, hu.answered, Or.inr ⟨?_, hopen, hid⟩⟩
      simp [SubmittedUnary.refuse, hd]
  | streaming t =>
      have h0 : t.delivered = 0 := hw
      exact SubmittedStreaming.Sound.failed h s rfl rfl rfl ⟨by omega, by omega⟩

theorem Waiting.reject (hw : c.Waiting) (h : c.Sound) (s : Status) : (c.reject s).Sound := by
  cases c with
  | unary u =>
      exact SubmittedUnary.Sound.completion (z := Zlib.none) (e := .fail s) h
        (SubmittedUnary.Waiting.direct hw) rfl
  | streaming t => exact Waiting.refuse (c := .streaming t) hw h s

theorem Waiting.accept (hw : c.Waiting) (h : c.Sound) (id : StreamId) : (c.accept id).Sound := by
  cases c with
  | unary u =>
      exact SubmittedUnary.Sound.completion (z := Zlib.none) (e := .armTimer) h
        (SubmittedUnary.Waiting.direct hw) rfl
  | streaming t =>
      have h0 : t.delivered = 0 := hw
      obtain ⟨hc, ht, _, _⟩ := SubmittedStreaming.Sound.untouched h h0
      refine ⟨fun hd => ?_, fun hclosed => ?_, by simp [SubmittedStreaming.accept, h0],
        fun hn => ?_⟩
      · exact absurd (ht.symm.trans hd) (by simp)
      · exact absurd (hc.symm.trans hclosed) (by simp)
      · exact absurd hn (Nat.succ_ne_zero _)

theorem Sound.close (h : c.Sound) {id : StreamId} (hid : c.streamId = some id) (errorCode : Nat) :
    (c.close errorCode).Sound := by
  cases c with
  | unary u =>
      have hd := SubmittedUnary.Sound.direct_of_active h hid
      exact SubmittedUnary.Sound.completion (z := Zlib.none) (e := .close errorCode) h hd rfl
  | streaming t =>
      have hn := SubmittedStreaming.delivered_pos_of_streamId h
        (by rw [show t.streamId = _ from hid]; rfl)
      exact SubmittedStreaming.Sound.closes h errorCode hn

theorem Sound.storeCancelled (h : c.Sound) : c.storeCancelled.Sound := by
  cases c with
  | unary u =>
      have hu : u.Sound := h
      exact ⟨hu.gate, hu.answered, hu.direct⟩
  | streaming t => exact h

theorem Waiting.storeCancelled (hw : c.Waiting) : c.storeCancelled.Waiting := by
  cases c with
  | unary u =>
      have hu : u.Waiting := hw
      exact ⟨hu.direct, hu.open_, hu.streamId⟩
  | streaming t => exact hw

/-- `Fail` decides a call whose outcome is still open. -/
theorem Sound.failedWith (h : c.Sound) (hopen : c.settled = false) (s : Status) :
    (c.fail s).FailedWith s := by
  cases c with
  | unary u =>
      obtain ⟨_, hc⟩ := Bool.or_eq_false_iff.1 hopen
      have hstep : u.completion.step Zlib.none (.fail s) =
        some (u.completion.after (u.completion.call.fail s)) := rfl
      exact Gate.decided_post hc (SubmittedUnary.Sound.gate h).once
        (UnaryCompletion.step_gate hstep)
  | streaming t =>
      obtain ⟨hc, _⟩ := Bool.or_eq_false_iff.1 hopen
      refine ⟨StreamingCallState.fail_closed t.state s, List.mem_append_right _ ?_⟩
      simp [StreamingCallState.fail, hc]

/-- **A settled call whose closures have run is answered.** -/
theorem Sound.answered (h : c.Sound) (hs : c.settled = true) (hd : c.drained = true)
    (hw : ¬ c.Waiting) : c.Answered := by
  cases c with
  | unary u =>
      have hone := SubmittedUnary.Sound.completions_eq_one h hs
      have hnil : u.completion.ioc = [] := List.isEmpty_iff.1 hd
      rw [hnil] at hone
      exact hone
  | streaming t =>
      have hle := SubmittedStreaming.Sound.delivered h
      have hne : t.delivered ≠ 0 := hw
      exact ⟨by omega, SubmittedStreaming.Sound.statusReady_of_settled h hs (List.isEmpty_iff.1 hd)⟩

/-- A settled call has left its waiting state. -/
theorem Sound.not_waiting (h : c.Sound) (hs : c.settled = true) : ¬ c.Waiting := by
  intro hw
  cases c with
  | unary u =>
      have hset : u.settled = false := by
        simp [SubmittedUnary.settled, SubmittedUnary.Waiting.direct hw,
          SubmittedUnary.Waiting.open_ hw]
      exact absurd (hset.symm.trans hs) (by simp)
  | streaming t =>
      obtain ⟨hc, ht, _, _⟩ := SubmittedStreaming.Sound.untouched h hw
      have hset : t.settled = false := by simp [SubmittedStreaming.settled, hc, ht]
      exact absurd (hset.symm.trans hs) (by simp)

/-- Failing a call twice is failing it once. -/
theorem fail_fail (c : ChannelCall) (s s' : Status) : (c.fail s).fail s' = c.fail s := by
  cases c with
  | unary u =>
      have hc := (UnaryCompletion.complete_flags u.completion.call (UnaryResultRaw.of s)).1
      exact congrArg unary ((u.fail s).fail_of_completed hc s')
  | streaming t =>
      exact congrArg streaming
        ((t.fail s).fail_of_closed (StreamingCallState.fail_closed t.state s) s')

/-! ## The events of the calls themselves -/

/-- An event of a unary call. -/
def stepUnary (z : Zlib) (e : UnaryEvent) : ChannelCall → Option ChannelCall
  | .unary u => (u.step z e).map .unary
  | .streaming _ => none

/-- An event of a streaming call. -/
def stepStreaming (e : StreamingEvent) : ChannelCall → Option ChannelCall
  | .unary _ => none
  | .streaming t => (t.step e).map .streaming

/-- What an event of a call keeps besides what every step does. -/
structure Proceeds (c c' : ChannelCall) : Prop where
  evolves : Evolves c c'
  sound : c'.Sound
  stream : c'.streamId = c.streamId
  waiting : c.Waiting → c'.Waiting

theorem Sound.stepUnary {z : Zlib} {e : UnaryEvent} {c' : ChannelCall} (h : c.Sound)
    (hstep : c.stepUnary z e = some c') : Proceeds c c' := by
  cases c with
  | streaming t => cases hstep
  | unary u =>
      obtain ⟨u', hu', rfl⟩ := Option.map_eq_some_iff.1 hstep
      have hu : u.Sound := h
      obtain ⟨cpl, hcpl, rfl, hd⟩ := hu.step_cases hu'
      refine ⟨⟨rfl, fun hset => ?_, fun _ hid => hid⟩, hu.completion hd hcpl, rfl, fun hw => ?_⟩
      · rcases Bool.or_eq_true_iff.1 hset with hdir | hc
        · exact Bool.or_eq_true_iff.2 (Or.inl hdir)
        · exact Bool.or_eq_true_iff.2 (Or.inr (SubmittedUnary.completed_step hcpl hc))
      · have hwu : u.Waiting := hw
        rw [hu.step_waiting hwu] at hu'
        cases hu'

theorem Sound.stepStreaming {e : StreamingEvent} {c' : ChannelCall} (h : c.Sound)
    (hstep : c.stepStreaming e = some c') : Proceeds c c' := by
  cases c with
  | unary u => cases hstep
  | streaming t =>
      obtain ⟨t', ht', rfl⟩ := Option.map_eq_some_iff.1 hstep
      have ht : t.Sound := h
      obtain ⟨hn, hid⟩ := SubmittedStreaming.step_frame ht'
      exact ⟨⟨rfl, SubmittedStreaming.settled_step ht', fun _ h' => hid.trans h'⟩, ht.step ht', hid,
        fun hw => hn.trans hw⟩

theorem Sound.proceeds_storeCancelled (h : c.Sound) : Proceeds c c.storeCancelled := by
  refine ⟨c.evolves_storeCancelled, h.storeCancelled, ?_, Waiting.storeCancelled⟩
  cases c <;> rfl

end ChannelCall

end Rpcpio.Client
