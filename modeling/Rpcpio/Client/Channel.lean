import Rpcpio.Client.ChannelCalls
import Rpcpio.Client.UnaryCall

/-!
# The channel

`ChannelImpl` keeps five containers: the two queues of calls that wait for the connection, the
callbacks of `Connect`, and the two maps of submitted calls. Its member functions run on the strand,
and several of them call back into the application, which may use the channel again from there:
`dispatch` then runs the operation at once, in the middle of the function that called back. A
function is therefore modelled in pieces. `Channel.stack` holds what the functions that are on the
strand still have to do (`Frame`), innermost first; a `Frame.user` is a callback that has not
returned. With an empty stack the strand takes its next closure.

The session is assumed to invoke `on_connect` at most once and not after `on_error`, `on_goaway`
only after `on_connect`, and to use a new id for each stream.
-/

set_option autoImplicit false

namespace Rpcpio.Client

open Rpcpio.Library Rpcpio.Protocol

/-- The position of a call among those given to the channel. -/
abbrev CallId := Nat

/-- The position of a `Connect` callback among those given to the channel. -/
abbrev WaiterId := Nat

/-- `ConnState`. -/
inductive ConnState where
  | idle
  | connecting
  | ready
  | failed
  | shutdown
  deriving DecidableEq, Repr

/-- An error code that `on_error` is invoked with, and its message. -/
structure SessionError where
  value : Int
  message : Bytes
  isError : value ≠ 0
  deriving DecidableEq, Repr

/-- The status of `DrainQueue` for a connection that could not be established. -/
def SessionError.connectionFailed (e : SessionError) : Status :=
  Status.of (asioErrorToStatusCode e.value true) (text "connection failed: " ++ e.message)

/-- The status of the `on_error` handler for an established connection. -/
def SessionError.connectionError (e : SessionError) : Status :=
  Status.of (asioErrorToStatusCode e.value true) (text "connection error: " ++ e.message)

/-- The status of operations on a failed channel. -/
def channelFailed : Status := Status.of .unavailable (text "channel failed")

/-- `ChannelImpl`. The queues and the maps name the calls by their positions; `session` and
`connectingSession` say whether the pointers are set. -/
structure ChannelImpl where
  state : ConnState
  pendingCalls : List CallId
  pendingGenericCalls : List CallId
  connectWaiters : List WaiterId
  session : Bool
  connectingSession : Bool
  terminalStatus : Option Status
  activeCalls : List (StreamId × CallId)
  activeStreamingCalls : List (StreamId × CallId)
  deriving DecidableEq, Repr

/-- `std::map::emplace`. -/
def emplace (m : List (StreamId × CallId)) (id : StreamId) (i : CallId) :
    List (StreamId × CallId) :=
  if id ∈ m.map Prod.fst then m else m ++ [(id, i)]

/-- `std::map::erase`. -/
def eraseStream (m : List (StreamId × CallId)) (id : StreamId) : List (StreamId × CallId) :=
  m.filter fun p => p.1 ≠ id

namespace ChannelImpl

/-- The constructor. -/
def new : ChannelImpl := ⟨.idle, [], [], [], false, false, none, [], []⟩

/-- `ShutdownStatus`. -/
def shutdownStatus (impl : ChannelImpl) : Status := impl.terminalStatus.getD channelShutDown

/-- A call that has to wait for the connection: unary calls in `pending_calls_`, others in
`pending_generic_calls_`. -/
def enqueue (impl : ChannelImpl) (isUnary : Bool) (i : CallId) : ChannelImpl :=
  if isUnary then { impl with pendingCalls := impl.pendingCalls ++ [i] }
  else { impl with pendingGenericCalls := impl.pendingGenericCalls ++ [i] }

/-- A submitted call enters its map. -/
def activate (impl : ChannelImpl) (isUnary : Bool) (id : StreamId) (i : CallId) : ChannelImpl :=
  if isUnary then { impl with activeCalls := emplace impl.activeCalls id i }
  else { impl with activeStreamingCalls := emplace impl.activeStreamingCalls id i }

/-- The `on_close` closure: `RemoveActiveCall`, or the same for the map of streaming calls. -/
def removeActive (impl : ChannelImpl) (isUnary : Bool) (id : StreamId) : ChannelImpl :=
  if isUnary then { impl with activeCalls := eraseStream impl.activeCalls id }
  else { impl with activeStreamingCalls := eraseStream impl.activeStreamingCalls id }

end ChannelImpl

/-- Closures on the strand: operations of the application, the session's callbacks and the closes of
streams. -/
inductive ChannelTask where
  | connect (w : WaiterId)
  | submit (i : CallId)
  | shutdown
  | onConnect
  | onError (e : SessionError)
  | onGoaway (lastStreamId : StreamId)
  | close (i : CallId) (errorCode : Nat)
  deriving DecidableEq, Repr

/-- What a function on the strand still has to do: `user` is a callback of the application; the
loops over the callbacks of `Connect`, over the moved `pending_calls_` and over the moved
`pending_generic_calls_`; the rest of `DrainQueue` after the callbacks; `FailAll`, its loop, and its
second half; and the rest of `DoShutdown` after the callbacks. -/
inductive Frame where
  | user
  | notifyWaiters (ws : List WaiterId) (s : Status)
  | drainReady
  | submitCalls (ids : List CallId)
  | drainGeneric
  | runGeneric (ids : List CallId)
  | failAll (s : Status)
  | completePending (ids : List CallId) (s : Status)
  | shutdownActive
  deriving DecidableEq, Repr

/-- The operations of the application. -/
inductive ChannelOp where
  | connect
  | submitCall (ctx : Option ClientContext)
  | submitStreaming (kind : CallKind) (ctx : Option ClientContext)
  | shutdown
  deriving DecidableEq, Repr

/-- A channel, its strand, the calls and the callbacks given to it, and its session. `configuration`
is the status of `BuildTlsContext` where that fails. `callbacks` says whether a session exists whose
callbacks have not been cleared. -/
structure Channel where
  configuration : Option Status
  impl : ChannelImpl
  strand : List ChannelTask
  stack : List Frame
  calls : List ChannelCall
  waiters : Nat
  notified : List (WaiterId × Status)
  callbacks : Bool
  connectFired : Bool
  errorFired : Bool
  deriving DecidableEq, Repr

/-- What can happen to a channel: an operation, dispatched from another thread or from a callback
on the strand; the end of such a callback; the strand goes on; `Shutdown` of a stopped context; the
session's callbacks; and the events of the calls. -/
inductive ChannelEvent where
  | post (op : ChannelOp)
  | callInline (op : ChannelOp) (o : BuildOutcome)
  | callbackReturns
  | runStrand (o : BuildOutcome)
  | resume (o : BuildOutcome)
  | shutdownStopped
  | sessionConnected
  | sessionError (e : SessionError)
  | sessionGoaway (lastStreamId : StreamId)
  | streamClosed (i : CallId) (errorCode : Nat)
  | unary (i : CallId) (e : UnaryEvent)
  | streaming (i : CallId) (e : StreamingEvent)
  | cancelControl (i : CallId)
  deriving DecidableEq, Repr

/-- `call->Fail(status)` on some of the calls, one after the other. -/
def failCalls (ids : List CallId) (s : Status) (calls : List ChannelCall) : List ChannelCall :=
  ids.foldl (fun calls i => calls.modify i (ChannelCall.fail s)) calls

namespace Channel

/-- A channel that has not been used. -/
def new (configuration : Option Status) : Channel :=
  ⟨configuration, ChannelImpl.new, [], [], [], 0, [], false, false, false⟩

/-- More to do on the strand, before what is left. -/
def push (c : Channel) (fs : List Frame) : Channel := { c with stack := fs ++ c.stack }

/-- A closure is posted to the strand. -/
def enqueue (c : Channel) (t : ChannelTask) : Channel := { c with strand := c.strand ++ [t] }

/-- A member function of a call. -/
def modify (c : Channel) (i : CallId) (f : ChannelCall → ChannelCall) : Channel :=
  { c with calls := c.calls.modify i f }

/-- A `Connect` callback is invoked. -/
def notify (c : Channel) (w : WaiterId) (s : Status) : Channel :=
  { c with notified := c.notified ++ [(w, s)] }.push [.user]

/-- `DrainWithStatus`, and `DrainQueue` for an error. -/
def drainWithStatus (c : Channel) (s : Status) : Channel :=
  { c with impl := { c.impl with connectWaiters := [] } }.push
    [.notifyWaiters c.impl.connectWaiters s, .failAll s]

/-- `DoConnect`. -/
def doConnect (c : Channel) : Channel :=
  match c.configuration with
  | some s =>
      { c with impl := { c.impl with state := .shutdown, terminalStatus := some s }
        }.drainWithStatus s
  | none => { c with impl := { c.impl with connectingSession := true }, callbacks := true }

/-- `if (state_ == kIdle) { state_ = kConnecting; DoConnect(); }`. -/
def startConnecting (c : Channel) : Channel :=
  if c.impl.state = .idle then { c with impl := { c.impl with state := .connecting } }.doConnect
  else c

/-- The closure of `Connect`. -/
def connect (c : Channel) (w : WaiterId) : Channel :=
  match c.impl.state with
  | .shutdown => c.notify w c.impl.shutdownStatus
  | .ready => c.notify w Status.okStatus
  | .failed => c.notify w channelFailed
  | .idle => { c with impl := { c.impl with
      connectWaiters := c.impl.connectWaiters ++ [w] } }.startConnecting
  | .connecting => { c with impl := { c.impl with
      connectWaiters := c.impl.connectWaiters ++ [w] } }.startConnecting

/-- A submit closure answers the call itself, and thereby calls back. -/
def refuse (c : Channel) (i : CallId) (s : Status) : Channel :=
  (c.modify i (ChannelCall.refuse s)).push [.user]

/-- `completion(call->TakeReader())` and its siblings call back; a submitted unary call does not. -/
def handOver (call : ChannelCall) : List Frame := if call.isUnary then [] else [.user]

/-- A submit closure on a connected channel: the request is built and submitted. -/
def build (c : Channel) (i : CallId) (call : ChannelCall) : BuildOutcome → Channel
  | .invalid s => c.refuse i s
  | .rejected s => (c.modify i (ChannelCall.reject s)).push (handOver call)
  | .accepted id =>
      ({ c with impl := c.impl.activate call.isUnary id i }.modify i (ChannelCall.accept id)).push
        (handOver call)

/-- The closures of `SubmitCall` and of the three streaming submit functions. -/
def submit (c : Channel) (i : CallId) (o : BuildOutcome) : Channel :=
  match c.calls[i]? with
  | none => c
  | some call =>
      if call.cancelled then c.refuse i callCancelled
      else
        match c.impl.state with
        | .shutdown => c.refuse i c.impl.shutdownStatus
        | .failed => c.refuse i channelFailed
        | .ready => c.build i call o
        | .idle => { c with impl := c.impl.enqueue call.isUnary i }.startConnecting
        | .connecting => { c with impl := c.impl.enqueue call.isUnary i }.startConnecting

/-- `DoShutdown`, up to its callbacks. -/
def doShutdown (c : Channel) : Channel :=
  if c.impl.state = .shutdown then c
  else
    { c with
      impl := { c.impl with
        state := .shutdown
        session := false
        connectingSession := false
        connectWaiters := [] }
      callbacks := c.callbacks && !(c.impl.connectingSession || c.impl.session) }.push
      [.notifyWaiters c.impl.connectWaiters channelShutDown, .shutdownActive]

/-- `DoShutdown` on the active calls. -/
def failActive (c : Channel) : Channel :=
  { c with
    impl := { c.impl with activeCalls := [], activeStreamingCalls := [] }
    calls := failCalls ((c.impl.activeCalls ++ c.impl.activeStreamingCalls).map Prod.snd)
      channelShutDown c.calls }.push [.failAll channelShutDown]

/-- `OnConnected`. -/
def onConnected (c : Channel) : Option SessionError → Channel
  | some e =>
      { c with impl := { c.impl with connectingSession := false, state := .failed }
        }.drainWithStatus
        e.connectionFailed
  | none =>
      { c with impl := { c.impl with
          connectingSession := false
          state := .ready
          connectWaiters := [] } }.push
        [.notifyWaiters c.impl.connectWaiters Status.okStatus, .drainReady]

/-- The closure of `on_connect`. -/
def onConnect (c : Channel) : Channel :=
  if c.impl.state = .shutdown then { c with impl := { c.impl with connectingSession := false } }
  else { c with impl := { c.impl with session := true } }.onConnected none

/-- The closure of `on_error`. -/
def onError (c : Channel) (e : SessionError) : Channel :=
  match c.impl.state with
  | .shutdown => c
  | .ready => c.push [.failAll e.connectionError]
  | _ => c.onConnected (some e)

/-- `OnGoaway`. -/
def onGoaway (c : Channel) (lastStreamId : StreamId) : Channel :=
  let above := fun p : StreamId × CallId => decide (lastStreamId < p.1)
  { c with
    impl := { c.impl with
      state := .failed
      activeCalls := c.impl.activeCalls.filter fun p => !above p
      activeStreamingCalls := c.impl.activeStreamingCalls.filter fun p => !above p }
    calls := failCalls
      ((c.impl.activeCalls.filter above ++ c.impl.activeStreamingCalls.filter above).map Prod.snd)
      (goawayStatus lastStreamId) c.calls }.push [.failAll (goawayStatus lastStreamId)]

/-- The closure of `on_close`. -/
def close (c : Channel) (i : CallId) (errorCode : Nat) : Channel :=
  match c.calls[i]? with
  | none => c
  | some call =>
      match call.streamId with
      | none => c
      | some id =>
          { c with impl := c.impl.removeActive call.isUnary id }.modify i
            (ChannelCall.close errorCode)

/-- A closure on the strand runs. -/
def runTask (c : Channel) (t : ChannelTask) (o : BuildOutcome) : Channel :=
  match t with
  | .connect w => c.connect w
  | .submit i => c.submit i o
  | .shutdown => c.doShutdown
  | .onConnect => c.onConnect
  | .onError e => c.onError e
  | .onGoaway lastStreamId =>
      if c.impl.state = .shutdown then c else c.onGoaway lastStreamId
  | .close i errorCode => c.close i errorCode

/-- A function on the strand goes on; `c` is the channel without the frame. -/
def runFrame (c : Channel) (f : Frame) (o : BuildOutcome) : Channel :=
  match f with
  | .user => c
  | .notifyWaiters [] _ => c
  | .notifyWaiters (w :: ws) s => (c.push [.notifyWaiters ws s]).notify w s
  | .drainReady =>
      { c with impl := { c.impl with pendingCalls := [] } }.push
        [.submitCalls c.impl.pendingCalls, .drainGeneric]
  | .submitCalls [] => c
  | .submitCalls (i :: ids) => (c.push [.submitCalls ids]).submit i o
  | .drainGeneric =>
      { c with impl := { c.impl with pendingGenericCalls := [] } }.push
        [.runGeneric c.impl.pendingGenericCalls]
  | .runGeneric [] => c
  | .runGeneric (i :: ids) => (c.push [.runGeneric ids]).submit i o
  | .failAll s =>
      { c with impl := { c.impl with pendingCalls := [] } }.push
        [.completePending c.impl.pendingCalls s, .drainGeneric]
  | .completePending [] _ => c
  | .completePending (i :: ids) s => (c.push [.completePending ids s]).refuse i s
  | .shutdownActive => c.failActive

/-- An operation of the application is given to the channel. -/
def give (c : Channel) : ChannelOp → Channel × ChannelTask
  | .connect => ({ c with waiters := c.waiters + 1 }, .connect c.waiters)
  | .submitCall ctx =>
      ({ c with calls := c.calls ++ [.unary (SubmittedUnary.new ctx)] }, .submit c.calls.length)
  | .submitStreaming kind ctx =>
      ({ c with calls := c.calls ++ [.streaming (SubmittedStreaming.new kind ctx)] },
        .submit c.calls.length)
  | .shutdown => (c, .shutdown)

/-- The session gives a new stream an id that it has not used. -/
def isFresh (c : Channel) : BuildOutcome → Bool
  | .accepted id => c.calls.all fun call => call.streamId ≠ some id
  | _ => true

/-- An event of a call. -/
def onCall (c : Channel) (i : CallId) (f : ChannelCall → Option ChannelCall) : Option Channel :=
  match c.calls[i]? with
  | none => none
  | some call => (f call).map fun call' => { c with calls := c.calls.set i call' }

/-- The closure of the cancellation slot checks that `active_streaming_calls_` holds the stream. -/
def mayCancel (c : Channel) (i : CallId) (e : StreamingEvent) : Bool :=
  match e with
  | .cancel =>
      match c.calls[i]? with
      | none => false
      | some call => c.impl.activeStreamingCalls.any fun p => some p.1 = call.streamId
  | _ => true

/-- One event. -/
def step (z : Zlib) (c : Channel) : ChannelEvent → Option Channel
  | .post op => some ((c.give op).1.enqueue (c.give op).2)
  | .callInline op o =>
      match c.stack with
      | .user :: _ => if c.isFresh o then some ((c.give op).1.runTask (c.give op).2 o) else none
      | _ => none
  | .callbackReturns =>
      match c.stack with
      | .user :: rest => some { c with stack := rest }
      | _ => none
  | .runStrand o =>
      match c.stack, c.strand with
      | [], t :: rest => if c.isFresh o then some ({ c with strand := rest }.runTask t o) else none
      | _, _ => none
  | .resume o =>
      match c.stack with
      | [] => none
      | .user :: _ => none
      | f :: rest => if c.isFresh o then some ({ c with stack := rest }.runFrame f o) else none
  | .shutdownStopped => if c.stack = [] then some c.doShutdown else none
  | .sessionConnected =>
      if c.callbacks && !c.connectFired && !c.errorFired then
        some ({ c with connectFired := true }.enqueue .onConnect)
      else none
  | .sessionError e =>
      if c.callbacks then some ({ c with errorFired := true }.enqueue (.onError e)) else none
  | .sessionGoaway lastStreamId =>
      if c.callbacks && c.connectFired then some (c.enqueue (.onGoaway lastStreamId)) else none
  | .streamClosed i errorCode =>
      match c.calls[i]? with
      | none => none
      | some call =>
          if call.streamId.isSome then some (c.enqueue (.close i errorCode)) else none
  | .unary i e => c.onCall i (ChannelCall.stepUnary z e)
  | .streaming i e => if c.mayCancel i e then c.onCall i (ChannelCall.stepStreaming e) else none
  | .cancelControl i => c.onCall i fun call => some call.storeCancelled

/-- The channel as a machine. -/
def machine (z : Zlib) : Machine Channel ChannelEvent := ⟨step z⟩

/-! ## What a step does -/

/-- The guard of each event, and the channel behind it. -/
inductive Move (z : Zlib) (c : Channel) : ChannelEvent → Channel → Prop
  | post (op : ChannelOp) : Move z c (.post op) ((c.give op).1.enqueue (c.give op).2)
  | callInline (op : ChannelOp) (o : BuildOutcome) {rest : List Frame}
      (hs : c.stack = .user :: rest) (ho : c.isFresh o = true) :
      Move z c (.callInline op o) ((c.give op).1.runTask (c.give op).2 o)
  | callbackReturns {rest : List Frame} (hs : c.stack = .user :: rest) :
      Move z c .callbackReturns { c with stack := rest }
  | runStrand {t : ChannelTask} {rest : List ChannelTask} (o : BuildOutcome)
      (hstack : c.stack = []) (hs : c.strand = t :: rest) (ho : c.isFresh o = true) :
      Move z c (.runStrand o) ({ c with strand := rest }.runTask t o)
  | resume {f : Frame} {rest : List Frame} (o : BuildOutcome) (hs : c.stack = f :: rest)
      (ho : c.isFresh o = true) : Move z c (.resume o) ({ c with stack := rest }.runFrame f o)
  | shutdownStopped (hstack : c.stack = []) : Move z c .shutdownStopped c.doShutdown
  | sessionConnected (hcallbacks : c.callbacks = true) (hconnect : c.connectFired = false)
      (herror : c.errorFired = false) :
      Move z c .sessionConnected ({ c with connectFired := true }.enqueue .onConnect)
  | sessionError (e : SessionError) (hcallbacks : c.callbacks = true) :
      Move z c (.sessionError e) ({ c with errorFired := true }.enqueue (.onError e))
  | sessionGoaway (lastStreamId : StreamId) (hcallbacks : c.callbacks = true)
      (hconnect : c.connectFired = true) :
      Move z c (.sessionGoaway lastStreamId) (c.enqueue (.onGoaway lastStreamId))
  | streamClosed {i : CallId} (errorCode : Nat) {call : ChannelCall}
      (hcall : c.calls[i]? = some call) (hid : call.streamId.isSome = true) :
      Move z c (.streamClosed i errorCode) (c.enqueue (.close i errorCode))
  | unary {i : CallId} {e : UnaryEvent} {call call' : ChannelCall}
      (hcall : c.calls[i]? = some call) (he : ChannelCall.stepUnary z e call = some call') :
      Move z c (.unary i e) { c with calls := c.calls.set i call' }
  | streaming {i : CallId} {e : StreamingEvent} {call call' : ChannelCall}
      (hmay : c.mayCancel i e = true) (hcall : c.calls[i]? = some call)
      (he : ChannelCall.stepStreaming e call = some call') :
      Move z c (.streaming i e) { c with calls := c.calls.set i call' }
  | cancelControl {i : CallId} {call : ChannelCall} (hcall : c.calls[i]? = some call) :
      Move z c (.cancelControl i) { c with calls := c.calls.set i call.storeCancelled }

/-- An event of a call finds the call. -/
theorem onCall_eq_some {c c' : Channel} {i : CallId} {f : ChannelCall → Option ChannelCall}
    (h : c.onCall i f = some c') :
    ∃ call call', c.calls[i]? = some call ∧ f call = some call' ∧
      c' = { c with calls := c.calls.set i call' } := by
  unfold onCall at h
  split at h
  · cases h
  · rename_i call hcall
    obtain ⟨call', hcall', rfl⟩ := Option.map_eq_some_iff.1 h
    exact ⟨call, call', hcall, hcall', rfl⟩

/-- **Every step is one of the moves.** -/
theorem step_move {z : Zlib} {c c' : Channel} {e : ChannelEvent} (h : step z c e = some c') :
    Move z c e c' := by
  cases e with
  | post op =>
      cases h
      exact .post op
  | callInline op o =>
      simp only [step] at h
      split at h
      · rename_i rest hs
        obtain ⟨ho, heq⟩ := Option.ite_none_right_eq_some.1 h
        cases heq
        exact .callInline op o hs ho
      · cases h
  | callbackReturns =>
      simp only [step] at h
      split at h
      · rename_i rest hs
        cases h
        exact .callbackReturns hs
      · cases h
  | runStrand o =>
      -- the strand takes a closure only when no function is on it
      simp only [step] at h
      split at h
      · rename_i t rest hstack hs
        obtain ⟨ho, heq⟩ := Option.ite_none_right_eq_some.1 h
        cases heq
        exact .runStrand o hstack hs ho
      · cases h
  | resume o =>
      -- a callback of the application returns by itself
      simp only [step] at h
      split at h
      · cases h
      · cases h
      · rename_i f rest _ hs
        obtain ⟨ho, heq⟩ := Option.ite_none_right_eq_some.1 h
        cases heq
        exact .resume o hs ho
  | shutdownStopped =>
      obtain ⟨hstack, heq⟩ := Option.ite_none_right_eq_some.1 h
      cases heq
      exact .shutdownStopped hstack
  | sessionConnected =>
      obtain ⟨hguard, heq⟩ := Option.ite_none_right_eq_some.1 h
      cases heq
      simp only [Bool.and_eq_true, Bool.not_eq_true'] at hguard
      exact .sessionConnected hguard.1.1 hguard.1.2 hguard.2
  | sessionError e =>
      obtain ⟨hcallbacks, heq⟩ := Option.ite_none_right_eq_some.1 h
      cases heq
      exact .sessionError e hcallbacks
  | sessionGoaway lastStreamId =>
      obtain ⟨hguard, heq⟩ := Option.ite_none_right_eq_some.1 h
      cases heq
      rw [Bool.and_eq_true] at hguard
      exact .sessionGoaway lastStreamId hguard.1 hguard.2
  | streamClosed i errorCode =>
      simp only [step] at h
      split at h
      · cases h
      · rename_i call hcall
        obtain ⟨hid, heq⟩ := Option.ite_none_right_eq_some.1 h
        cases heq
        exact .streamClosed errorCode hcall hid
  | unary i e =>
      obtain ⟨call, call', hcall, he, rfl⟩ := onCall_eq_some h
      exact .unary hcall he
  | streaming i e =>
      obtain ⟨hmay, h⟩ := Option.ite_none_right_eq_some.1 h
      obtain ⟨call, call', hcall, he, rfl⟩ := onCall_eq_some h
      exact .streaming hmay hcall he
  | cancelControl i =>
      obtain ⟨call, call', hcall, he, rfl⟩ := onCall_eq_some h
      cases he
      exact .cancelControl hcall

/-- The strand runs the closure at its head. -/
theorem runStrand_eq {z : Zlib} {c c' : Channel} {t : ChannelTask} {rest : List ChannelTask}
    {o : BuildOutcome} (hs : c.strand = t :: rest) (h : step z c (.runStrand o) = some c') :
    c' = { c with strand := rest }.runTask t o := by
  cases step_move h with
  | runStrand o hstack hs' ho =>
      rw [hs, List.cons.injEq] at hs'
      obtain ⟨rfl, rfl⟩ := hs'
      rfl

end Channel

end Rpcpio.Client
