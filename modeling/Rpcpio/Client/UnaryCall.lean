import Rpcpio.Client.CallState

/-!
# One unary call among its executors

A unary call has two completion gates. The inner one, `completed_` of `ClientCallState`, is used on
the strand; the outer one, in `UnaryCallCompletion`, also by the caller's threads, which cancel
through `UnaryCallControl`. `UnaryCall.step` interleaves them at the grain at which they can
interfere: a thread that runs `UnaryCallCompletion::Cancel` or `Complete` takes one access to shared
state at a time (`Pc`), and so does the submit closure (`SubmitPhase`), which occupies the strand
until it is done.
-/

set_option autoImplicit false

namespace Rpcpio.Client

open Rpcpio.Library Rpcpio.Protocol

/-- Where a thread stands in `UnaryCallCompletion::Cancel` (the first three, which are
`UnaryCallControl::Cancel`) or `Complete` (the last three). -/
inductive Pc where
  | storeCancelled
  | copyCancelStream
  | invokeCancelStream (copied : Bool)
  | exchange (r : UnaryResultRaw)
  | clearCancelStream (r : UnaryResultRaw)
  | postHandler (r : UnaryResultRaw)
  deriving DecidableEq, Repr

/-- Where the submit closure stands: not run, moved to `pending_calls_`, before it builds the
request, before `SetCancelStream`, in the cancellation that `SetCancelStream` found, before
`ArmTimer`, done. -/
inductive SubmitPhase where
  | waiting
  | queued
  | building
  | setting
  | cancelling
  | arming
  | done
  deriving DecidableEq, Repr

/-- What the channel's state makes of the call: refused, queued in `pending_calls_`, or built. -/
inductive CheckOutcome where
  | refused (s : Status)
  | queued
  | proceed
  deriving DecidableEq, Repr

/-- How building and submitting the request ends. -/
inductive BuildOutcome where
  | invalid (s : Status)
  | rejected (s : Status)
  | accepted (id : StreamId)
  deriving DecidableEq, Repr

/-- Closures posted to the strand. -/
inductive UnaryTask where
  | data (chunk : Bytes)
  | trailers (h : HeaderMap)
  | close (errorCode : Nat)
  | cancel
  | deadline
  deriving DecidableEq, Repr

/-- A unary call: the call state, the callbacks it posted, the control and the completion object,
the threads inside them, the submit closure, the stream in the session, the strand and the trace. -/
structure UnaryCall where
  call : ClientCallState
  ioc : List UnaryResultRaw
  cancelled : Bool
  cancelStream : Bool
  completed : Bool
  posted : List UnaryResultRaw
  handled : List UnaryResultRaw
  threads : List Pc
  phase : SubmitPhase
  streamId : Option StreamId
  active : Bool
  headersArrived : Bool
  registered : Bool
  trailersArrived : Bool
  sessionClosed : Bool
  strand : List UnaryTask
  trace : List Effect
  deriving DecidableEq, Repr

/-- What can happen to a unary call. -/
inductive UnaryCallEvent where
  | submitCheck (o : CheckOutcome)
  | failPending (s : Status)
  | submitBuild (o : BuildOutcome)
  | setCancelStream
  | cancelSubmitted
  | armTimer
  | response (head : ResponseHead)
  | data (chunk : Bytes)
  | trailers (h : HeaderMap)
  | close (errorCode : Nat)
  | runStrand
  | runIoc (i : Nat)
  | expire
  | timerHandler
  | cancel
  | cancelOnStrand
  | thread (i : Nat)
  | runHandler (i : Nat)
  | goaway (lastStreamId : StreamId)
  | shutdown
  deriving DecidableEq, Repr

/-- `UnaryResultRaw{Status{CANCELLED, "call cancelled"}}`. -/
def cancelledResult : UnaryResultRaw := UnaryResultRaw.of callCancelled

namespace UnaryCall

/-- A call before its submit closure runs. -/
def new (ctx : Option ClientContext) : UnaryCall where
  call := ClientCallState.new ctx
  ioc := []
  cancelled := false
  cancelStream := false
  completed := false
  posted := []
  handled := []
  threads := []
  phase := .waiting
  streamId := none
  active := false
  headersArrived := false
  registered := false
  trailersArrived := false
  sessionClosed := false
  strand := []
  trace := []

/-- The call after a member function that posts callbacks. -/
def after (u : UnaryCall) (r : ClientCallState × List UnaryResultRaw) : UnaryCall :=
  { u with call := r.1, ioc := u.ioc ++ r.2 }

/-- Append effects to the trace. -/
def log (u : UnaryCall) (es : List Effect) : UnaryCall := { u with trace := u.trace ++ es }

/-- Post a closure to the strand. -/
def post (u : UnaryCall) (t : UnaryTask) : UnaryCall := { u with strand := u.strand ++ [t] }

/-- Start a thread. -/
def spawn (u : UnaryCall) (pc : Pc) : UnaryCall := { u with threads := u.threads ++ [pc] }

/-- No submit closure is in the middle of its run. -/
def strandFree (u : UnaryCall) : Bool :=
  u.phase = .waiting ∨ u.phase = .queued ∨ u.phase = .done

/-- The session may invoke callbacks of the stream. -/
def isOpen (u : UnaryCall) : Bool := u.streamId.isSome && !u.sessionClosed && u.phase = .done

/-- The function stored in `cancel_stream_`, on the strand. -/
def cancelOnStream (u : UnaryCall) : UnaryCall := (u.log [.request .cancel]).after u.call.cancel

/-- `SubmitCall` up to the state of the channel; a queued call is submitted anew by `DrainQueue`. -/
def submitCheck (u : UnaryCall) (o : CheckOutcome) : UnaryCall :=
  -- a call that was cancelled before its turn is never submitted
  if u.cancelled then { u with phase := .done }.spawn (.exchange cancelledResult)
  else
    match o with
    | .refused s => { u with phase := .done }.spawn (.exchange (UnaryResultRaw.of s))
    | .queued => { u with phase := .queued }
    | .proceed => { u with phase := .building }

/-- `SubmitCall` up to `SetCancelStream`: headers, frame and call state read the context. -/
def submitBuild (u : UnaryCall) (o : BuildOutcome) : UnaryCall :=
  let u := u.log (contextReads u.call.ctx)
  match o with
  -- the headers or the frame could not be built, and no call state exists
  | .invalid s => { u with phase := .done }.spawn (.exchange (UnaryResultRaw.of s))
  -- `SubmitRequest` failed, and the call state reports it
  | .rejected s => { u with phase := .done }.after (u.call.fail s)
  | .accepted id => { u with phase := .setting, streamId := some id, active := true }

/-- One access of a thread to the control or the completion object. -/
def stepThread (u : UnaryCall) (i : Nat) : Pc → UnaryCall
  | .storeCancelled =>
      { u with cancelled := true, threads := u.threads.set i .copyCancelStream }
  | .copyCancelStream =>
      -- the function is copied under the mutex and invoked after its release
      { u with threads := u.threads.set i (.invokeCancelStream u.cancelStream) }
  | .invokeCancelStream copied =>
      let u := { u with threads := u.threads.set i (.exchange cancelledResult) }
      if copied then u.post .cancel else u
  | .exchange r =>
      -- `exchange(true)`: only the first caller goes on
      if u.completed then { u with threads := u.threads.eraseIdx i }
      else { u with completed := true, threads := u.threads.set i (.clearCancelStream r) }
  | .clearCancelStream r =>
      { u with cancelStream := false, threads := u.threads.set i (.postHandler r) }
  | .postHandler r =>
      { u with posted := u.posted ++ [r], threads := u.threads.eraseIdx i }.log
        [.published r.status]

/-- A closure posted to the strand runs. -/
def runTask (z : Zlib) (u : UnaryCall) : UnaryTask → UnaryCall
  | .data chunk => u.after (u.call.onData chunk)
  | .trailers h =>
      (u.log (if u.call.needsDecompression h then contextReads u.call.ctx else [])).after
        (u.call.onTrailers z h)
  | .close errorCode => { u with active := false }.after (u.call.onStreamClose errorCode)
  | .cancel => u.cancelOnStream
  | .deadline => u.after (u.call.complete (UnaryResultRaw.of deadlineExceeded))

/-- `OnGoaway` and `DoShutdown` fail an active call and erase it. -/
def failActive (u : UnaryCall) (s : Status) : UnaryCall :=
  if u.active then { u with active := false }.after (u.call.fail s) else u

/-- One event. -/
def step (z : Zlib) (u : UnaryCall) : UnaryCallEvent → Option UnaryCall
  | .submitCheck o =>
      -- a queued call is submitted anew by `DrainQueue`
      if u.phase = .waiting ∨ u.phase = .queued then some (u.submitCheck o) else none
  | .failPending s =>
      if u.phase = .queued then
        some ({ u with phase := .done }.spawn (.exchange (UnaryResultRaw.of s)))
      else none
  | .submitBuild o => if u.phase = .building then some (u.submitBuild o) else none
  | .setCancelStream =>
      if u.phase = .setting then
        some { u with
          cancelStream := true
          phase := if u.cancelled then .cancelling else .arming }
      else none
  | .cancelSubmitted =>
      if u.phase = .cancelling then
        let u := { u with cancelled := true, phase := .arming }
        -- the call may have been completed in between, which cleared the function
        some (if u.cancelStream then u.cancelOnStream else u)
      else none
  | .armTimer =>
      if u.phase = .arming then
        some ({ u with call := u.call.armTimer, phase := .done }.log (contextReads u.call.ctx))
      else none
  | .response head =>
      if u.isOpen && !u.headersArrived then
        -- the data and trailers callbacks are registered by `Attach`
        let r := u.call.attach z head
        some ({ u with headersArrived := true, registered := r.2.2 }.after (r.1, r.2.1))
      else none
  | .data chunk => if u.isOpen && u.registered then some (u.post (.data chunk)) else none
  | .trailers h =>
      if u.isOpen && u.registered && !u.trailersArrived then
        some ({ u with trailersArrived := true }.post (.trailers h))
      else none
  | .close errorCode =>
      if u.isOpen then
        some (({ u with sessionClosed := true }.log [.sessionClosed]).post (.close errorCode))
      else none
  | .runStrand =>
      match u.strand with
      | [] => none
      -- closures of the strand run one at a time
      | t :: rest => if u.strandFree then some ({ u with strand := rest }.runTask z t) else none
  | .runIoc i =>
      u.ioc[i]?.map fun r => { u with ioc := u.ioc.eraseIdx i }.spawn (.exchange r)
  | .expire => u.call.timer.expire.map fun t => { u with call := { u.call with timer := t } }
  | .timerHandler =>
      u.call.timer.fire.map fun t => { u with call := { u.call with timer := t } }.post .deadline
  | .cancel => some (u.spawn .storeCancelled)
  | .cancelOnStrand =>
      if u.strandFree then
        let u := { u with cancelled := true }
        some ((if u.cancelStream then u.cancelOnStream else u).spawn (.exchange cancelledResult))
      else none
  | .thread i => u.threads[i]?.map (u.stepThread i)
  | .runHandler i =>
      u.posted[i]?.map fun r =>
        { u with posted := u.posted.eraseIdx i, handled := u.handled ++ [r] }
  | .goaway lastStreamId =>
      if u.strandFree then
        some (if u.streamId.any fun id => lastStreamId < id then
          u.failActive (goawayStatus lastStreamId) else u)
      else none
  | .shutdown => if u.strandFree then some (u.failActive channelShutDown) else none

/-- The calls as a machine. -/
def machine (z : Zlib) : Machine UnaryCall UnaryCallEvent := ⟨step z⟩

/-! ## What an event does -/

/-- What an event does to a call, with what it needs. Invariants are proved over these cases, not
over the branches of `step`. -/
inductive Move (z : Zlib) (u : UnaryCall) : UnaryCallEvent → UnaryCall → Prop
  | submitCheck (o : CheckOutcome) (hphase : u.phase = .waiting ∨ u.phase = .queued) :
      Move z u (.submitCheck o) (u.submitCheck o)
  | failPending (s : Status) (hphase : u.phase = .queued) :
      Move z u (.failPending s) ({ u with phase := .done }.spawn (.exchange (UnaryResultRaw.of s)))
  | submitBuild (o : BuildOutcome) (hphase : u.phase = .building) :
      Move z u (.submitBuild o) (u.submitBuild o)
  | setCancelStream (hphase : u.phase = .setting) :
      Move z u .setCancelStream
        { u with cancelStream := true, phase := if u.cancelled then .cancelling else .arming }
  | cancelSubmitted (hphase : u.phase = .cancelling) (hset : u.cancelStream = true) :
      Move z u .cancelSubmitted { u with cancelled := true, phase := .arming }.cancelOnStream
  | cancelUnset (hphase : u.phase = .cancelling) (hset : u.cancelStream = false) :
      Move z u .cancelSubmitted { u with cancelled := true, phase := .arming }
  | armTimer (hphase : u.phase = .arming) :
      Move z u .armTimer
        ({ u with call := u.call.armTimer, phase := .done }.log (contextReads u.call.ctx))
  | response (head : ResponseHead) (hopen : u.isOpen = true) (hfirst : u.headersArrived = false) :
      Move z u (.response head)
        ({ u with headersArrived := true, registered := (u.call.attach z head).2.2 }.after
          ((u.call.attach z head).1, (u.call.attach z head).2.1))
  | data (chunk : Bytes) (hopen : u.isOpen = true) (hreg : u.registered = true) :
      Move z u (.data chunk) (u.post (.data chunk))
  | trailers (h : HeaderMap) (hopen : u.isOpen = true) (hreg : u.registered = true)
      (hfirst : u.trailersArrived = false) :
      Move z u (.trailers h) ({ u with trailersArrived := true }.post (.trailers h))
  | close (errorCode : Nat) (hopen : u.isOpen = true) :
      Move z u (.close errorCode)
        (({ u with sessionClosed := true }.log [.sessionClosed]).post (.close errorCode))
  | task (t : UnaryTask) (rest : List UnaryTask) (hs : u.strand = t :: rest)
      (hfree : u.strandFree = true) :
      Move z u .runStrand ({ u with strand := rest }.runTask z t)
  | ioc (i : Nat) (r : UnaryResultRaw) (hi : u.ioc[i]? = some r) :
      Move z u (.runIoc i) ({ u with ioc := u.ioc.eraseIdx i }.spawn (.exchange r))
  | expire (t : Timer) (ht : u.call.timer.expire = some t) :
      Move z u .expire { u with call := { u.call with timer := t } }
  | timerHandler (t : Timer) (ht : u.call.timer.fire = some t) :
      Move z u .timerHandler ({ u with call := { u.call with timer := t } }.post .deadline)
  | cancel : Move z u .cancel (u.spawn .storeCancelled)
  | cancelOnStrand (hfree : u.strandFree = true) (hset : u.cancelStream = true) :
      Move z u .cancelOnStrand
        ({ u with cancelled := true }.cancelOnStream.spawn (.exchange cancelledResult))
  | cancelOnStrandUnset (hfree : u.strandFree = true) (hset : u.cancelStream = false) :
      Move z u .cancelOnStrand ({ u with cancelled := true }.spawn (.exchange cancelledResult))
  | thread (i : Nat) (pc : Pc) (hi : u.threads[i]? = some pc) :
      Move z u (.thread i) (u.stepThread i pc)
  | runHandler (i : Nat) (r : UnaryResultRaw) (hi : u.posted[i]? = some r) :
      Move z u (.runHandler i)
        { u with posted := u.posted.eraseIdx i, handled := u.handled ++ [r] }
  | goaway (lastStreamId : StreamId) (hfree : u.strandFree = true)
      (hlater : (u.streamId.any fun id => lastStreamId < id) = true) :
      Move z u (.goaway lastStreamId) (u.failActive (goawayStatus lastStreamId))
  | spared (lastStreamId : StreamId) (hfree : u.strandFree = true)
      (hlater : (u.streamId.any fun id => lastStreamId < id) = false) :
      Move z u (.goaway lastStreamId) u
  | shutdown (hfree : u.strandFree = true) : Move z u .shutdown (u.failActive channelShutDown)

/-- **Every step is one of the moves.** -/
theorem step_move {z : Zlib} {u u' : UnaryCall} {e : UnaryCallEvent} (h : step z u e = some u') :
    Move z u e u' := by
  cases e with
  | submitCheck o =>
      simp only [step, Option.ite_none_right_eq_some, Option.some.injEq] at h
      obtain ⟨hphase, rfl⟩ := h
      exact .submitCheck o hphase
  | failPending s =>
      simp only [step, Option.ite_none_right_eq_some, Option.some.injEq] at h
      obtain ⟨hphase, rfl⟩ := h
      exact .failPending s hphase
  | submitBuild o =>
      simp only [step, Option.ite_none_right_eq_some, Option.some.injEq] at h
      obtain ⟨hphase, rfl⟩ := h
      exact .submitBuild o hphase
  | setCancelStream =>
      simp only [step, Option.ite_none_right_eq_some, Option.some.injEq] at h
      obtain ⟨hphase, rfl⟩ := h
      exact .setCancelStream hphase
  | cancelSubmitted =>
      simp only [step, Option.ite_none_right_eq_some, Option.some.injEq] at h
      obtain ⟨hphase, rfl⟩ := h
      split
      · rename_i hset
        exact .cancelSubmitted hphase hset
      · rename_i hset
        exact .cancelUnset hphase (Bool.not_eq_true _ ▸ hset)
  | armTimer =>
      simp only [step, Option.ite_none_right_eq_some, Option.some.injEq] at h
      obtain ⟨hphase, rfl⟩ := h
      exact .armTimer hphase
  | response head =>
      simp only [step, Option.ite_none_right_eq_some, Option.some.injEq, Bool.and_eq_true,
        Bool.not_eq_true'] at h
      obtain ⟨⟨hopen, hfirst⟩, rfl⟩ := h
      exact .response head hopen hfirst
  | data chunk =>
      simp only [step, Option.ite_none_right_eq_some, Option.some.injEq, Bool.and_eq_true] at h
      obtain ⟨⟨hopen, hreg⟩, rfl⟩ := h
      exact .data chunk hopen hreg
  | trailers hd =>
      simp only [step, Option.ite_none_right_eq_some, Option.some.injEq, Bool.and_eq_true,
        Bool.not_eq_true'] at h
      obtain ⟨⟨⟨hopen, hreg⟩, hfirst⟩, rfl⟩ := h
      exact .trailers hd hopen hreg hfirst
  | close errorCode =>
      simp only [step, Option.ite_none_right_eq_some, Option.some.injEq] at h
      obtain ⟨hopen, rfl⟩ := h
      exact .close errorCode hopen
  | runStrand =>
      cases hs : u.strand with
      | nil => simp [step, hs] at h
      | cons t rest =>
          simp only [step, hs, Option.ite_none_right_eq_some, Option.some.injEq] at h
          obtain ⟨hfree, rfl⟩ := h
          exact .task t rest hs hfree
  | runIoc i =>
      obtain ⟨r, hi, rfl⟩ := Option.map_eq_some_iff.1 h
      exact .ioc i r hi
  | expire =>
      obtain ⟨t, ht, rfl⟩ := Option.map_eq_some_iff.1 h
      exact .expire t ht
  | timerHandler =>
      obtain ⟨t, ht, rfl⟩ := Option.map_eq_some_iff.1 h
      exact .timerHandler t ht
  | cancel =>
      cases h
      exact .cancel
  | cancelOnStrand =>
      simp only [step, Option.ite_none_right_eq_some, Option.some.injEq] at h
      obtain ⟨hfree, rfl⟩ := h
      split
      · rename_i hset
        exact .cancelOnStrand hfree hset
      · rename_i hset
        exact .cancelOnStrandUnset hfree (Bool.not_eq_true _ ▸ hset)
  | thread i =>
      obtain ⟨pc, hi, rfl⟩ := Option.map_eq_some_iff.1 h
      exact .thread i pc hi
  | runHandler i =>
      obtain ⟨r, hi, rfl⟩ := Option.map_eq_some_iff.1 h
      exact .runHandler i r hi
  | goaway lastStreamId =>
      simp only [step, Option.ite_none_right_eq_some, Option.some.injEq] at h
      obtain ⟨hfree, rfl⟩ := h
      cases hlater : u.streamId.any fun id => lastStreamId < id with
      | true => exact .goaway lastStreamId hfree hlater
      | false => exact .spared lastStreamId hfree hlater
  | shutdown =>
      simp only [step, Option.ite_none_right_eq_some, Option.some.injEq] at h
      obtain ⟨hfree, rfl⟩ := h
      exact .shutdown hfree

end UnaryCall

end Rpcpio.Client
