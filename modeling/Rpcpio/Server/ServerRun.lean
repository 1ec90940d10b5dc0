import Rpcpio.Server.CallTermination
import Rpcpio.Server.ServerImpl

/-!
# The life of a server

`Server::Start`, `Shutdown` and the destructor, the requests that the connections hand to
`HandleRequest`, and the `io_context` that runs `FinishShutdown`, as the threads of one machine.
Every lock-protected block and every access to an atomic is a step of its own. The `io_context` is
run by somebody unless `iocStopped` is set.
-/

set_option autoImplicit false

namespace Rpcpio.Server

open Rpcpio.Library Rpcpio.Protocol

/-! ## Where the threads are -/

/-- The next step of `StopTransport`. -/
inductive StopStep where
  | cancelTimer
  | exchange
  | stop
  | resetGuard
  deriving DecidableEq, Repr

/-- The next step of `Start`. The steps from `resolvePort` to `spawnThread` can fail, with an error
or an exception, and `Start` then goes on with `CleanupFailedStart`: `StopTransport`, and `Wait`. -/
inductive StartStep where
  | notCalled
  | resolvePort
  | configureTls
  | listen
  | setListening
  | spawnThread (left : Nat)
  | cleanup (p : StopStep)
  | wait
  | returned (ok : Bool)
  deriving DecidableEq, Repr

/-- The next step of `Shutdown`: the first read of `listening_`, the block that collects and clears
`active_calls_`, the loop over the collected calls, the second read of `listening_`, the read of
`ioc_.stopped()`, and the post of `FinishShutdown`. -/
inductive ShutdownStep where
  | notCalled
  | stopListening
  | collect
  | cancelCalls (calls : List Nat)
  | checkListening
  | checkStopped
  | stopTransport (p : StopStep)
  | post
  | returned
  deriving DecidableEq, Repr

/-- Where the chain of `FinishShutdown` runs is: the posted closure, the wait of `shutdown_timer_`,
or `StopTransport`. -/
inductive FinishStep where
  | notPosted
  | posted
  | waiting
  | stopTransport (p : StopStep)
  | done
  deriving DecidableEq, Repr

/-- Where a request is: at the `if (shutdown_)` of `HandleRequest`, answered by it, or with a call
state that was created, tracked, or started. -/
inductive RequestStep where
  | received
  | answered (statusCode : Nat) (headers : HeaderMap)
  | created (call : AnyServerCall)
  | tracked (call : AnyServerCall)
  | started (call : AnyServerCall)
  deriving DecidableEq, Repr

/-- The call state of a request. -/
def RequestStep.call? : RequestStep → Option AnyServerCall
  | .received => none
  | .answered _ _ => none
  | .created call => some call
  | .tracked call => some call
  | .started call => some call

/-- What `HandleRequest` did is the next step of the request. -/
def Handling.requestStep : Handling → RequestStep
  | .answered statusCode headers => .answered statusCode headers
  | .unary c => .created (.unary (ServerCall.new c))
  | .serverStreaming c => .created (.serverStreaming (ServerStreamingCall.new c))
  | .clientStreaming c => .created (.clientStreaming (ClientStreamingCall.new c))
  | .bidi c => .created (.bidi (BidiStreamingCall.new c))

/-- A request with its call. `expired` says that the last `shared_ptr` to the call state is gone,
and `cancels` are the closures of `Cancel` on the call's executor. The rest is recorded for the
statements: `Shutdown` called `Cancel`, the call was terminal when `Shutdown` collected, and it was
tracked only after that. -/
structure ServedRequest where
  req : IncomingRequest
  step : RequestStep
  expired : Bool
  cancels : List Status
  cancelled : Bool
  ended : Bool
  late : Bool
  deriving DecidableEq, Repr

/-- `IsTerminal`. -/
def ServedRequest.isTerminal (r : ServedRequest) : Bool :=
  match r.step.call? with
  | some call => call.closed
  | none => false

/-- What the server does to its transport, and the entries of `StopTransport`. -/
inductive TransportEffect where
  | listen
  | stopListening
  | stopTransport
  | stop
  deriving DecidableEq, Repr

/-- `ServerImpl` and the threads that run its members. `impl.shutdown` is `shutdown_`, `calls` are
the calls that `Shutdown` collected, and `deadline` is the argument of the chain of `FinishShutdown`
runs. -/
structure ServerRun where
  impl : ServerImpl
  gracePeriod : Nat
  numThreads : Nat
  iocStopped : Bool
  started : Bool
  listening : Bool
  workGuard : Bool
  timer : Timer
  activeCalls : List Nat
  calls : List Nat
  deadline : Option Nat
  now : Nat
  requests : List ServedRequest
  startStep : StartStep
  shutdownStep : ShutdownStep
  finishStep : FinishStep
  trace : List TransportEffect
  deriving DecidableEq, Repr

/-- A step of a thread. `start` and `shutdown` are the calls of `Server::Start` and of `Shutdown`,
by the application or by the destructor; `startFail` is a failing step of `Start`. -/
inductive ServerEvent where
  | start
  | startNext
  | startFail
  | shutdown
  | shutdownNext
  | runPosted
  | timerExpire
  | timerHandler
  | timerAborted
  | finishNext
  | tick
  | request (req : IncomingRequest)
  | requestNext (i : Nat)
  | callEvent (i : Nat) (e : AnyServerCallEvent)
  | runCancel (i : Nat) (slot : List WriterCall)
  | expireCall (i : Nat)
  deriving DecidableEq, Repr

namespace ServerRun

/-- A server that was just constructed, with its handlers registered; the work guard is that of a
private `io_context`. -/
def new (impl : ServerImpl) (gracePeriod numThreads : Nat) (iocStopped : Bool) : ServerRun where
  impl := { impl with shutdown := false }
  gracePeriod := gracePeriod
  numThreads := numThreads
  iocStopped := iocStopped
  started := false
  listening := false
  workGuard := numThreads != 0
  timer := .idle
  activeCalls := []
  calls := []
  deadline := none
  now := 0
  requests := []
  startStep := .notCalled
  shutdownStep := .notCalled
  finishStep := .notPosted
  trace := []

/-- Add to the trace. -/
def log (s : ServerRun) (e : TransportEffect) : ServerRun := { s with trace := s.trace ++ [e] }

/-! ## The members of `ServerImpl` -/

/-- One step of `StopTransport`, with the one after it. -/
def stopTransport (s : ServerRun) : StopStep → ServerRun × Option StopStep
  | .cancelTimer => ({ s with timer := s.timer.cancel }, some .exchange)
  | .exchange =>
      ({ s with listening := false }, some (if s.listening then .stop else .resetGuard))
  | .stop => (s.log .stop, some .resetGuard)
  | .resetGuard => ({ s with workGuard := false }, none)

/-- One step of `Start` that succeeds. -/
def startNext (s : ServerRun) : Option ServerRun :=
  match s.startStep with
  | .notCalled => none
  | .resolvePort => some { s with startStep := .configureTls }
  | .configureTls => some { s with startStep := .listen }
  | .listen => some ({ s with startStep := .setListening }.log .listen)
  | .setListening => some { s with listening := true, startStep := .spawnThread s.numThreads }
  | .spawnThread 0 => some { s with startStep := .returned true }
  | .spawnThread (left + 1) => some { s with startStep := .spawnThread left }
  | .cleanup p =>
      let r := s.stopTransport p
      some { r.1 with startStep := (r.2.map .cleanup).getD .wait }
  | .wait => some { s with startStep := .returned false }
  | .returned _ => none

/-- The step of `Start` fails: `CleanupFailedStart` begins. The store of `listening_` and the end of
the loop over the threads cannot fail. -/
def startFail (s : ServerRun) : Option ServerRun :=
  let cleanup := some ({ s with startStep := .cleanup .cancelTimer }.log .stopTransport)
  match s.startStep with
  | .resolvePort | .configureTls | .listen | .spawnThread (_ + 1) => cleanup
  | _ => none

/-- `weak_call.lock()` returns null. -/
def isExpired (s : ServerRun) (i : Nat) : Bool :=
  match s.requests[i]? with
  | some r => r.expired
  | none => true

/-- The call has ended, or `weak_call.lock()` returns null. -/
def isOver (s : ServerRun) (i : Nat) : Bool :=
  match s.requests[i]? with
  | some r => r.expired || r.isTerminal
  | none => true

/-- The block of `Shutdown` that collects and clears `active_calls_`. -/
def collect (s : ServerRun) : ServerRun :=
  let calls := s.activeCalls.filter fun i => !s.isExpired i
  { s with
    activeCalls := []
    calls := calls
    requests := s.requests.map fun r => { r with ended := r.isTerminal }
    shutdownStep := .cancelCalls calls }

/-- `Shutdown` calls `Cancel` on a call, which dispatches a closure to the call's executor. -/
def cancelCall (s : ServerRun) (i : Nat) : ServerRun :=
  { s with
    requests := s.requests.modify i fun r =>
      { r with cancels := r.cancels ++ [serverShuttingDown], cancelled := true } }

/-- One step of `Shutdown`. -/
def shutdownNext (s : ServerRun) : Option ServerRun :=
  match s.shutdownStep with
  | .notCalled => none
  | .stopListening =>
      let s' := { s with shutdownStep := .collect }
      some (if s.listening then s'.log .stopListening else s')
  | .collect => some s.collect
  | .cancelCalls [] => some { s with shutdownStep := .checkListening }
  | .cancelCalls (i :: rest) => some { s.cancelCall i with shutdownStep := .cancelCalls rest }
  | .checkListening =>
      if s.listening then some { s with shutdownStep := .checkStopped }
      else some { s with workGuard := false, shutdownStep := .returned }
  | .checkStopped =>
      if s.iocStopped then
        some ({ s with shutdownStep := .stopTransport .cancelTimer }.log .stopTransport)
      else some { s with shutdownStep := .post }
  | .stopTransport p =>
      let r := s.stopTransport p
      some { r.1 with shutdownStep := (r.2.map .stopTransport).getD .returned }
  | .post => some { s with finishStep := .posted, shutdownStep := .returned }
  | .returned => none

/-- `FinishShutdown`: `StopTransport`, or another wait. -/
def finishShutdown (s : ServerRun) (deadline : Nat) : ServerRun :=
  let activeCalls := s.activeCalls.filter fun i => !s.isOver i
  let s' := { s with activeCalls := activeCalls, deadline := some deadline }
  if activeCalls.isEmpty || decide (deadline ≤ s.now) then
    { s' with finishStep := .stopTransport .cancelTimer }.log .stopTransport
  else { s' with timer := s.timer.arm, finishStep := .waiting }

/-- The deadline of the next `FinishShutdown`; the posted closure computes it. -/
def nextDeadline (s : ServerRun) : Nat := s.deadline.getD (s.now + s.gracePeriod)

/-- `Shutdown` has collected and cleared `active_calls_`. -/
def Collected (s : ServerRun) : Prop :=
  s.shutdownStep ≠ .notCalled ∧ s.shutdownStep ≠ .stopListening ∧ s.shutdownStep ≠ .collect

instance (s : ServerRun) : Decidable s.Collected := inferInstanceAs (Decidable (_ ∧ _ ∧ _))

/-- `TrackCall`. -/
def trackCall (s : ServerRun) (i : Nat) : ServerRun :=
  { s with activeCalls := (s.activeCalls.filter fun j => !s.isExpired j) ++ [i] }

/-- Replace a request. -/
def setRequest (s : ServerRun) (i : Nat) (r : ServedRequest) : ServerRun :=
  { s with requests := s.requests.set i r }

/-- One step of `HandleRequest`: the read of `shutdown_` with the checks and the lookup that follow
it, `TrackCall`, and `Start`. -/
def requestNext (z : Zlib) (s : ServerRun) (i : Nat) (r : ServedRequest) : Option ServerRun :=
  match r.step with
  | .received =>
      some (s.setRequest i { r with step := (s.impl.handleRequest r.req).requestStep })
  | .created call =>
      some ((s.trackCall i).setRequest i { r with step := .tracked call, late := s.Collected })
  | .tracked call =>
      (call.step z (call.startEvent r.req.toRequest)).map fun call =>
        s.setRequest i { r with step := .started call }
  | .answered _ _ | .started _ => none

/-- An event of a started call. -/
def stepCall (z : Zlib) (s : ServerRun) (i : Nat) (r : ServedRequest)
    (e : AnyServerCall → AnyServerCallEvent) : Option ServerRun :=
  match r.step with
  | .started call =>
      (call.step z (e call)).map fun call => s.setRequest i { r with step := .started call }
  | _ => none

/-- One step of a thread. -/
def step (z : Zlib) (s : ServerRun) : ServerEvent → Option ServerRun
  | .start =>
      -- a second `Start` returns FAILED_PRECONDITION
      some (if s.started then s else { s with started := true, startStep := .resolvePort })
  | .startNext => s.startNext
  | .startFail => s.startFail
  | .shutdown =>
      -- a second `Shutdown` returns at once
      some (if s.impl.shutdown then s
        else { s with impl := { s.impl with shutdown := true }, shutdownStep := .stopListening })
  | .shutdownNext => s.shutdownNext
  | .runPosted =>
      if s.finishStep = .posted then some (s.finishShutdown s.nextDeadline) else none
  | .timerExpire => s.timer.expire.map fun t => { s with timer := t }
  | .timerHandler =>
      if s.finishStep = .waiting then
        s.timer.fire.map fun t => { s with timer := t }.finishShutdown s.nextDeadline
      else none
  | .timerAborted =>
      -- the wait was cancelled, and its handler does nothing
      if s.finishStep = .waiting ∧ s.timer = .idle then some { s with finishStep := .done }
      else none
  | .finishNext =>
      match s.finishStep with
      | .stopTransport p =>
          let r := s.stopTransport p
          some { r.1 with finishStep := (r.2.map .stopTransport).getD .done }
      | _ => none
  | .tick => some { s with now := s.now + 1 }
  | .request req =>
      -- the connections are served from `listen_and_serve` until `http2_.stop()`
      if .listen ∈ s.trace ∧ .stop ∉ s.trace then
        some { s with requests := s.requests ++ [⟨req, .received, false, [], false, false, false⟩] }
      else none
  | .requestNext i => s.requests[i]?.bind fun r => s.requestNext z i r
  | .callEvent i e =>
      if e.own then s.requests[i]?.bind fun r => s.stepCall z i r fun _ => e else none
  | .runCancel i slot =>
      s.requests[i]?.bind fun r =>
        match r.cancels with
        | [] => none
        | status :: rest =>
            s.stepCall z i { r with cancels := rest } fun call => call.cancelEvent status slot
  | .expireCall i =>
      s.requests[i]?.bind fun r =>
        -- a call state lives at least until `OnClose`
        if r.isTerminal then some (s.setRequest i { r with expired := true }) else none

/-- The server as a machine. -/
def machine (z : Zlib) : Machine ServerRun ServerEvent := ⟨step z⟩

end ServerRun

/-- A server with one unary method. -/
def unaryServer : ServerImpl where
  opts := .default
  shutdown := false
  handlers := [text "/echo.Echo/Unary"]
  serverStreamingHandlers := []
  clientStreamingHandlers := []
  bidiHandlers := []

/-- A request for that method. -/
def unaryRequest : IncomingRequest where
  header := [(text "content-type", plain (text "application/grpc")),
    (text "te", plain (text "trailers"))]
  host := text "localhost"
  path := text "/echo.Echo/Unary"
  method := text "POST"
  peerIdentity := []

/-- `Start` with one worker thread. -/
def startEvents : List ServerEvent := .start :: List.replicate 6 .startNext

end Rpcpio.Server
