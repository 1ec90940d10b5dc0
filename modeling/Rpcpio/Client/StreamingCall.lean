import Rpcpio.Client.StreamingCallState
import Rpcpio.Library.Machine

/-!
# One streaming call among its executors

A streaming call lives between four parties: the session, which invokes the callbacks; the strand,
which runs posted closures in order; the `io_context`, which runs posted closures in any order; and
the application, which writes, reads and cancels. `StreamingCall.step` says what each event does.
Callbacks arrive in any order and on any channel; what is assumed of the session is that it invokes
only registered callbacks, that headers and trailers arrive once each, and that `on_close` is
invoked once and last.

The trace records what the claims about lifetimes are about: reads of the context, calls on the
request handle, publications of a final status, and the session's `on_close`.
-/

set_option autoImplicit false

namespace Rpcpio.Client

open Rpcpio.Library Rpcpio.Protocol

/-- Closures posted to the strand. -/
inductive StrandTask where
  | data (maxMsgSize : Nat) (chunk : Bytes)
  | trailers (h : HeaderMap)
  | close (errorCode : Nat)
  | enqueue (frame : Bytes)
  | writesDone
  | cancel
  | deadline
  deriving DecidableEq, Repr

/-- A call, the state of its stream in the session, its closures and its trace. `active` says
whether `active_streaming_calls_` holds the stream. -/
structure StreamingCall where
  call : StreamingCallState
  submitted : Bool
  streamId : Option StreamId
  active : Bool
  headersArrived : Bool
  dataLimit : Option Nat
  trailersArrived : Bool
  sessionClosed : Bool
  strand : List StrandTask
  ioc : List IocTask
  trace : List Effect
  deriving DecidableEq, Repr

/-- How the submit closure of a streaming call ends: the channel refuses the call, the headers or
the request message cannot be built, the session rejects the stream, or the stream is open. -/
inductive SubmitOutcome where
  | refused (s : Status)
  | invalid (s : Status)
  | rejected (s : Status)
  | accepted (id : StreamId)
  deriving DecidableEq, Repr

/-- What can happen to a streaming call. -/
inductive CallEvent where
  | submit (o : SubmitOutcome)
  | response (head : ResponseHead)
  | data (chunk : Bytes)
  | trailers (h : HeaderMap)
  | close (errorCode : Nat)
  | runStrand
  | runIoc (i : Nat)
  | expire
  | timerHandler
  | write (payload : Bytes)
  | writesDone
  | poll (len : Nat)
  | read
  | cancel (onStrand : Bool)
  | goaway (lastStreamId : StreamId)
  | shutdown
  deriving DecidableEq, Repr

/-- The publications made by a closure on the `io_context`. -/
def iocEffects (c : StreamingCallState) : IocTask → List Effect
  | .failed s => [.published s]
  | .streamClosed errorCode trailersDone =>
      if trailersDone then [] else [.published (closeStatus errorCode)]
  | .trailersOnly s => if c.closed then [] else [.published s]

namespace StreamingCall

/-- A call before its submit closure runs. -/
def new (c : StreamingCallState) : StreamingCall :=
  ⟨c, false, none, false, false, none, false, false, [], [], []⟩

/-- The call after a member function that posts to the `io_context`. -/
def after (w : StreamingCall) (r : StreamingCallState × List IocTask) : StreamingCall :=
  { w with call := r.1, ioc := w.ioc ++ r.2 }

/-- Append effects to the trace. -/
def log (w : StreamingCall) (es : List Effect) : StreamingCall := { w with trace := w.trace ++ es }

/-- Post a closure to the strand. -/
def post (w : StreamingCall) (t : StrandTask) : StreamingCall :=
  { w with strand := w.strand ++ [t] }

/-- The reads of the call's context. -/
def contextReads (w : StreamingCall) : List Effect := Client.contextReads w.call.ctx

/-- The submit closures `SubmitServerStreamingCall`, `SubmitClientStreamingCall` and
`SubmitBidiStreamingCall` from their decision on. -/
def submit (w : StreamingCall) : SubmitOutcome → StreamingCall
  | .refused s => { w with submitted := true }.after (w.call.fail s)
  | .invalid s => ({ w with submitted := true }.log w.contextReads).after (w.call.fail s)
  | .rejected s => ({ w with submitted := true }.log w.contextReads).after (w.call.fail s)
  | .accepted id =>
      let c : StreamingCallState :=
        { w.call with writer := w.call.writer.map fun x => { x with req := some id } }
      { w with submitted := true, streamId := some id, active := true, call := c.armTimer }.log
        w.contextReads

/-- `on_response`: `Attach`. -/
def onResponse (w : StreamingCall) (head : ResponseHead) : StreamingCall :=
  let r := w.call.attach head
  ({ w with headersArrived := true, dataLimit := r.2.2 }.after (r.1, r.2.1)).log
    (if r.2.2.isSome then w.contextReads else [])

/-- The handles' closures on the strand: the writer after them and their calls on the request. -/
def onWriter (w : StreamingCall)
    (f : RawClientWriterImpl → RawClientWriterImpl × List RequestCall) : StreamingCall :=
  match w.call.writer with
  | none => w
  | some x => { w with call := { w.call with writer := some (f x).1 } }.log ((f x).2.map .request)

/-- The closure of the cancellation slot: only a stream of the active map is cancelled. -/
def cancelActive (w : StreamingCall) : StreamingCall :=
  if w.active then (w.log [.request .cancel]).after w.call.cancel else w

/-- A closure posted to the strand runs. -/
def runTask (w : StreamingCall) : StrandTask → StreamingCall
  | .data maxMsgSize chunk => w.after (w.call.onData maxMsgSize chunk)
  | .trailers h =>
      { w with call := w.call.onTrailers h }.log
        (if w.call.closed then [] else [.published (extractTrailerStatus h)])
  | .close errorCode => { w with active := false }.after (w.call.onStreamClose errorCode)
  | .enqueue frame => w.onWriter fun x => x.enqueueOnStrand frame
  | .writesDone => w.onWriter fun x => x.writesDoneOnStrand
  | .cancel => w.cancelActive
  | .deadline => w.after (w.call.fail deadlineExceeded)

/-- `OnGoaway` and `DoShutdown` call the function stored in the active map and erase it. -/
def failActive (w : StreamingCall) (s : Status) : StreamingCall :=
  if w.active then { w with active := false }.after (w.call.fail s) else w

/-- The session may invoke callbacks of the stream. -/
def isOpen (w : StreamingCall) : Bool := w.streamId.isSome && !w.sessionClosed

/-- Statuses of failed submissions are errors. -/
def SubmitOutcome.isValid : SubmitOutcome → Bool
  | .accepted _ => true
  | .refused s => !s.isOk
  | .invalid s => !s.isOk
  | .rejected s => !s.isOk

/-- One event. -/
def step (w : StreamingCall) : CallEvent → Option StreamingCall
  | .submit o => if !w.submitted && SubmitOutcome.isValid o then some (w.submit o) else none
  | .response head =>
      if w.isOpen && !w.headersArrived then some (w.onResponse head) else none
  | .data chunk =>
      match w.dataLimit with
      | none => none
      | some maxMsgSize =>
          if w.isOpen then some (if chunk.isEmpty then w else w.post (.data maxMsgSize chunk))
          else none
  | .trailers h =>
      if w.isOpen && w.dataLimit.isSome && !w.trailersArrived then
        some ({ w with trailersArrived := true }.post (.trailers h))
      else none
  | .close errorCode =>
      if w.isOpen then
        some (({ w with sessionClosed := true }.log [.sessionClosed]).post (.close errorCode))
      else none
  | .runStrand =>
      match w.strand with
      | [] => none
      | t :: rest => some ({ w with strand := rest }.runTask t)
  | .runIoc i =>
      match w.ioc[i]? with
      | none => none
      | some t =>
          some ({ w with call := w.call.runIoc t, ioc := w.ioc.eraseIdx i }.log
            (iocEffects w.call t))
  | .expire => w.call.timer.expire.map fun t => { w with call := { w.call with timer := t } }
  | .timerHandler =>
      w.call.timer.fire.map fun t => { w with call := { w.call with timer := t } }.post .deadline
  | .write payload =>
      if w.submitted && w.call.writer.isSome then
        some (match (RawClientWriterImpl.enqueue payload).2 with
          | none => w
          | some frame => w.post (.enqueue frame))
      else none
  | .writesDone =>
      if w.submitted && w.call.writer.isSome then some (w.post .writesDone) else none
  | .poll len =>
      if w.isOpen && w.call.writer.isSome then
        some { w with call := { w.call with
          writer := w.call.writer.map fun x => (x.clientWriterGenerator len).1 } }
      else none
  | .read =>
      match w.call.reader with
      | none => none
      | some r =>
          if w.submitted && r.msgQueue.canPop then
            some { w with call := { w.call with reader := some r.read.1 } }
          else none
  | .cancel onStrand =>
      if w.streamId.isSome && w.call.ctx.isSome then
        some (if onStrand then w.cancelActive else w.post .cancel)
      else none
  | .goaway lastStreamId =>
      match w.streamId with
      | none => some w
      | some id => some (if lastStreamId < id then w.failActive (goawayStatus lastStreamId) else w)
  | .shutdown => some (w.failActive channelShutDown)

/-- The calls as a machine. -/
def machine : Machine StreamingCall CallEvent := ⟨step⟩

/-! ## What an event does -/

/-- What an event does to a call, with what it needs. Invariants are proved over these cases, not
over the branches of `step`. -/
inductive Move (w : StreamingCall) : CallEvent → StreamingCall → Prop
  | submit (o : SubmitOutcome) (hnew : w.submitted = false)
      (hvalid : SubmitOutcome.isValid o = true) : Move w (.submit o) (w.submit o)
  | response (head : ResponseHead) (hopen : w.isOpen = true) (hfirst : w.headersArrived = false) :
      Move w (.response head) (w.onResponse head)
  | noData (chunk : Bytes) : Move w (.data chunk) w
  | data (maxMsgSize : Nat) (chunk : Bytes) (hlimit : w.dataLimit = some maxMsgSize) :
      Move w (.data chunk) (w.post (.data maxMsgSize chunk))
  | trailers (h : HeaderMap) (hlimit : w.dataLimit.isSome = true)
      (hfirst : w.trailersArrived = false) :
      Move w (.trailers h) ({ w with trailersArrived := true }.post (.trailers h))
  | close (errorCode : Nat) (hopen : w.isOpen = true) :
      Move w (.close errorCode)
        (({ w with sessionClosed := true }.log [.sessionClosed]).post (.close errorCode))
  | task (t : StrandTask) (rest : List StrandTask) (hs : w.strand = t :: rest) :
      Move w .runStrand ({ w with strand := rest }.runTask t)
  | ioc (i : Nat) (t : IocTask) (hi : w.ioc[i]? = some t) :
      Move w (.runIoc i)
        ({ w with call := w.call.runIoc t, ioc := w.ioc.eraseIdx i }.log (iocEffects w.call t))
  | expire (t : Timer) (ht : w.call.timer.expire = some t) :
      Move w .expire { w with call := { w.call with timer := t } }
  | timerHandler (t : Timer) (ht : w.call.timer.fire = some t) :
      Move w .timerHandler ({ w with call := { w.call with timer := t } }.post .deadline)
  | noFrame (payload : Bytes) : Move w (.write payload) w
  | write (payload frame : Bytes) : Move w (.write payload) (w.post (.enqueue frame))
  | writesDone : Move w .writesDone (w.post .writesDone)
  | poll (len : Nat) :
      Move w (.poll len) { w with call := { w.call with
        writer := w.call.writer.map fun x => (x.clientWriterGenerator len).1 } }
  | read (r : RawClientReaderImpl) (hr : w.call.reader = some r) :
      Move w .read { w with call := { w.call with reader := some r.read.1 } }
  | cancel : Move w (.cancel true) w.cancelActive
  | postCancel : Move w (.cancel false) (w.post .cancel)
  | goaway (lastStreamId id : StreamId) (hid : w.streamId = some id) (hlt : lastStreamId < id) :
      Move w (.goaway lastStreamId) (w.failActive (goawayStatus lastStreamId))
  | spared (lastStreamId : StreamId) (hid : ∀ id, w.streamId = some id → ¬ lastStreamId < id) :
      Move w (.goaway lastStreamId) w
  | shutdown : Move w .shutdown (w.failActive channelShutDown)

/-- **Every step is one of the moves.** -/
theorem step_move {w w' : StreamingCall} {e : CallEvent} (h : w.step e = some w') :
    w.Move e w' := by
  cases e with
  | submit o =>
      simp only [step, Option.ite_none_right_eq_some, Option.some.injEq, Bool.and_eq_true,
        Bool.not_eq_true'] at h
      obtain ⟨⟨hnew, hvalid⟩, rfl⟩ := h
      exact .submit o hnew hvalid
  | response head =>
      simp only [step, Option.ite_none_right_eq_some, Option.some.injEq, Bool.and_eq_true,
        Bool.not_eq_true'] at h
      obtain ⟨⟨hopen, hfirst⟩, rfl⟩ := h
      exact .response head hopen hfirst
  | data chunk =>
      cases hlimit : w.dataLimit with
      | none => simp [step, hlimit] at h
      | some maxMsgSize =>
          simp only [step, hlimit, Option.ite_none_right_eq_some, Option.some.injEq] at h
          obtain ⟨_, rfl⟩ := h
          split
          · exact .noData chunk
          · exact .data maxMsgSize chunk hlimit
  | trailers hd =>
      simp only [step, Option.ite_none_right_eq_some, Option.some.injEq, Bool.and_eq_true,
        Bool.not_eq_true'] at h
      obtain ⟨⟨⟨_, hlimit⟩, hfirst⟩, rfl⟩ := h
      exact .trailers hd hlimit hfirst
  | close errorCode =>
      simp only [step, Option.ite_none_right_eq_some, Option.some.injEq] at h
      obtain ⟨hopen, rfl⟩ := h
      exact .close errorCode hopen
  | runStrand =>
      cases hs : w.strand with
      | nil => simp [step, hs] at h
      | cons t rest =>
          simp only [step, hs, Option.some.injEq] at h
          subst h
          exact .task t rest hs
  | runIoc i =>
      cases hi : w.ioc[i]? with
      | none => simp [step, hi] at h
      | some t =>
          simp only [step, hi, Option.some.injEq] at h
          subst h
          exact .ioc i t hi
  | expire =>
      obtain ⟨t, ht, rfl⟩ := Option.map_eq_some_iff.1 h
      exact .expire t ht
  | timerHandler =>
      obtain ⟨t, ht, rfl⟩ := Option.map_eq_some_iff.1 h
      exact .timerHandler t ht
  | write payload =>
      simp only [step, Option.ite_none_right_eq_some, Option.some.injEq] at h
      obtain ⟨_, rfl⟩ := h
      split
      · exact .noFrame payload
      · exact .write payload _
  | writesDone =>
      simp only [step, Option.ite_none_right_eq_some, Option.some.injEq] at h
      obtain ⟨_, rfl⟩ := h
      exact .writesDone
  | poll len =>
      simp only [step, Option.ite_none_right_eq_some, Option.some.injEq] at h
      obtain ⟨_, rfl⟩ := h
      exact .poll len
  | read =>
      cases hr : w.call.reader with
      | none => simp [step, hr] at h
      | some r =>
          simp only [step, hr, Option.ite_none_right_eq_some, Option.some.injEq] at h
          obtain ⟨_, rfl⟩ := h
          exact .read r hr
  | cancel onStrand =>
      simp only [step, Option.ite_none_right_eq_some, Option.some.injEq] at h
      obtain ⟨_, rfl⟩ := h
      cases onStrand with
      | true => exact .cancel
      | false => exact .postCancel
  | goaway lastStreamId =>
      cases hid : w.streamId with
      | none =>
          simp only [step, hid, Option.some.injEq] at h
          subst h
          exact .spared lastStreamId fun id h => by rw [hid] at h; cases h
      | some id =>
          simp only [step, hid, Option.some.injEq] at h
          subst h
          by_cases hlt : lastStreamId < id
          · rw [if_pos hlt]
            exact .goaway lastStreamId id hid hlt
          · rw [if_neg hlt]
            refine .spared lastStreamId ?_
            intro other h
            rw [hid, Option.some.injEq] at h
            rwa [← h]
  | shutdown =>
      simp only [step, Option.some.injEq] at h
      subst h
      exact .shutdown

/-! ## What has arrived of the response -/

/-- A closure of the writer changes nothing of what has arrived. -/
theorem arrived_onWriter (w : StreamingCall)
    (f : RawClientWriterImpl → RawClientWriterImpl × List RequestCall) :
    (w.onWriter f).headersArrived = w.headersArrived ∧
      (w.onWriter f).trailersArrived = w.trailersArrived := by
  simp only [onWriter]
  split <;> exact ⟨rfl, rfl⟩

/-- A closure changes neither what has arrived of the response. -/
theorem arrived_runTask (w : StreamingCall) (t : StrandTask) :
    (w.runTask t).headersArrived = w.headersArrived ∧
      (w.runTask t).trailersArrived = w.trailersArrived := by
  cases t with
  | data maxMsgSize chunk => exact ⟨rfl, rfl⟩
  | trailers h => exact ⟨rfl, rfl⟩
  | close errorCode => exact ⟨rfl, rfl⟩
  | enqueue frame => exact w.arrived_onWriter _
  | writesDone => exact w.arrived_onWriter _
  | cancel =>
      simp only [runTask, cancelActive]
      split <;> exact ⟨rfl, rfl⟩
  | deadline => exact ⟨rfl, rfl⟩

theorem headersArrived_failActive (w : StreamingCall) (s : Status) :
    (w.failActive s).headersArrived = w.headersArrived := by
  simp only [failActive]
  split <;> rfl

/-- Only the response head changes `headersArrived`. -/
theorem headersArrived_step {w w' : StreamingCall} {e : CallEvent} (h : w.step e = some w') :
    (∃ head, e = .response head ∧ w.headersArrived = false ∧ w'.headersArrived = true) ∨
      ((∀ head, e ≠ .response head) ∧ w'.headersArrived = w.headersArrived) := by
  have hother : (∀ head, e ≠ .response head) → w'.headersArrived = w.headersArrived →
      (∃ head, e = .response head ∧ w.headersArrived = false ∧ w'.headersArrived = true) ∨
        ((∀ head, e ≠ .response head) ∧ w'.headersArrived = w.headersArrived) :=
    fun hne heq => Or.inr ⟨hne, heq⟩
  cases step_move h with
  | response head _ hfirst => exact Or.inl ⟨head, rfl, hfirst, rfl⟩
  | submit o => exact hother (by simp) (by cases o <;> rfl)
  | task t rest => exact hother (by simp) (arrived_runTask { w with strand := rest } t).1
  | cancel => exact hother (by simp) (w.arrived_runTask .cancel).1
  | goaway lastStreamId => exact hother (by simp) (w.headersArrived_failActive _)
  | shutdown => exact hother (by simp) (w.headersArrived_failActive _)
  | _ => exact hother (by simp) rfl

/-- In a run no response head arrives after the first. -/
theorem no_second_response {w w' : StreamingCall} {es : List CallEvent}
    (hrun : machine.run w es = some w') (harr : w.headersArrived = true) :
    w'.headersArrived = true ∧ ∀ head, CallEvent.response head ∉ es := by
  induction es generalizing w with
  | nil =>
      rw [Machine.run_nil, Option.some.injEq] at hrun
      exact ⟨hrun ▸ harr, fun head h => by cases h⟩
  | cons e es ih =>
      obtain ⟨v, hv, hrest⟩ := Machine.run_cons_some.1 hrun
      rcases headersArrived_step hv with ⟨head, rfl, hnew, _⟩ | ⟨hne, hsame⟩
      · rw [harr] at hnew
        cases hnew
      · obtain ⟨hend, hnone⟩ := ih hrest (hsame.trans harr)
        refine ⟨hend, fun head hmem => ?_⟩
        rcases List.mem_cons.1 hmem with hmem | hmem
        · exact hne head hmem.symm
        · exact hnone head hmem

/-- **The response head of a run is unique**, and it has arrived at its end. -/
theorem response_unique {w w' : StreamingCall} {es : List CallEvent} {head : ResponseHead}
    (hrun : machine.run w es = some w') (hmem : CallEvent.response head ∈ es) :
    w'.headersArrived = true ∧ ∀ other, CallEvent.response other ∈ es → other = head := by
  induction es generalizing w with
  | nil => cases hmem
  | cons e es ih =>
      obtain ⟨v, hv, hrest⟩ := Machine.run_cons_some.1 hrun
      rcases headersArrived_step hv with ⟨first, rfl, _, harr⟩ | ⟨hne, _⟩
      · obtain ⟨hend, hnone⟩ := no_second_response hrest harr
        refine ⟨hend, fun other hother => ?_⟩
        rcases List.mem_cons.1 hmem with hmem | hmem
        · rcases List.mem_cons.1 hother with hother | hother
          · cases hmem
            cases hother
            rfl
          · exact absurd hother (hnone other)
        · exact absurd hmem (hnone head)
      · rcases List.mem_cons.1 hmem with hmem | hmem
        · exact absurd hmem.symm (hne head)
        · obtain ⟨hend, huniq⟩ := ih hrest hmem
          refine ⟨hend, fun other hother => ?_⟩
          rcases List.mem_cons.1 hother with hother | hother
          · exact absurd hother.symm (hne other)
          · exact huniq other hother

end StreamingCall

end Rpcpio.Client
