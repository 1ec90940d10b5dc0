import Rpcpio.Client.ClientContext
import Rpcpio.Client.RawClientImpls
import Rpcpio.Protocol.StreamParsing

/-!
# The streaming client call states

`ServerStreamingClientCallState`, `ClientStreamingClientCallState` and
`BidiStreamingClientCallState` have the same members and the same member functions, and differ in
the handles they hold: a reader, a writer, or both. `StreamingCallState` is their common state; the
three classes are its constructors. Each member function returns the state and the closures it
posts to the `io_context` (`IocTask`).
-/

set_option autoImplicit false

namespace Rpcpio.Client

open Rpcpio.Library Rpcpio.Protocol

/-- The state shared by the three streaming call states. -/
structure StreamingCallState where
  reader : Option RawClientReaderImpl
  writer : Option RawClientWriterImpl
  ctx : Option ClientContext
  timer : Timer
  lpm : LpmReader
  closed : Bool
  trailersDone : Bool
  deriving DecidableEq, Repr

/-- Closures posted to the `io_context`: by `Fail`, by `OnStreamClose`, and by `Attach` for a
trailers-only response. -/
inductive IocTask where
  | failed (s : Status)
  | streamClosed (errorCode : Nat) (trailersDone : Bool)
  | trailersOnly (s : Status)
  deriving DecidableEq, Repr

/-- `ServerStreamingClientCallState`: a reader. -/
def ServerStreamingClientCallState.new (ctx : Option ClientContext) : StreamingCallState :=
  ⟨some RawClientReaderImpl.new, none, ctx, .idle, LpmReader.new, false, false⟩

/-- `ClientStreamingClientCallState`: a writer. -/
def ClientStreamingClientCallState.new (ctx : Option ClientContext) : StreamingCallState :=
  ⟨none, some RawClientWriterImpl.new, ctx, .idle, LpmReader.new, false, false⟩

/-- `BidiStreamingClientCallState`: a reader and a writer. -/
def BidiStreamingClientCallState.new (ctx : Option ClientContext) : StreamingCallState :=
  ⟨some RawClientReaderImpl.new, some RawClientWriterImpl.new, ctx, .idle, LpmReader.new, false,
    false⟩

/-- The kinds of streaming calls. -/
inductive CallKind where
  | serverStreaming
  | clientStreaming
  | bidi
  deriving DecidableEq, Repr

/-- The call state that the submit function of a kind creates. -/
def CallKind.callState : CallKind → Option ClientContext → StreamingCallState
  | .serverStreaming => ServerStreamingClientCallState.new
  | .clientStreaming => ClientStreamingClientCallState.new
  | .bidi => BidiStreamingClientCallState.new

/-- What `Attach` does with a response head. -/
inductive HeadVerdict where
  | rejected (s : Status)
  | trailersOnly (s : Status)
  | accepted
  deriving DecidableEq, Repr

/-- The checks of `Attach`: content type, status code, `grpc-status` in the first header block. -/
def headVerdict (head : ResponseHead) : HeadVerdict :=
  if !isGrpc head.header then .rejected (Status.fromHttpStatus head.statusCode)
  else if head.statusCode ≠ 200 then .rejected (Status.fromHttpStatus head.statusCode)
  else if Multimap.contains (text "grpc-status") head.header then
    .trailersOnly (extractTrailerStatus head.header)
  else .accepted

namespace StreamingCallState

/-- `ArmTimer`. -/
def armTimer (c : StreamingCallState) : StreamingCallState :=
  { c with timer := Client.armTimer c.ctx c.timer }

/-- `Fail`. -/
def fail (c : StreamingCallState) (s : Status) : StreamingCallState × List IocTask :=
  if c.closed then (c, [])
  else ({ c with closed := true, timer := c.timer.cancel }, [.failed s])

/-- `Cancel`. -/
def cancel (c : StreamingCallState) : StreamingCallState × List IocTask := c.fail callCancelled

/-- `OnStreamClose`; a writer first forgets its request. -/
def onStreamClose (c : StreamingCallState) (errorCode : Nat) :
    StreamingCallState × List IocTask :=
  let c := { c with writer := c.writer.map fun w => { w with req := none } }
  if c.closed then (c, [])
  else
    ({ c with closed := true, timer := c.timer.cancel },
      [.streamClosed errorCode c.trailersDone])

/-- The handles after `SetFinalStatus`. -/
def setFinalStatus (c : StreamingCallState) (s : Status) : StreamingCallState :=
  { c with
    reader := c.reader.map fun r => r.setFinalStatus s
    writer := c.writer.map fun w => w.setFinalStatus s }

/-- The body of the closures that publish an error: `SetError`, then `SetFinalStatus`. -/
def publishError (c : StreamingCallState) (s : Status) : StreamingCallState :=
  let c : StreamingCallState := { c with reader := c.reader.map fun r =>
    { r with msgQueue := r.msgQueue.setError s } }
  c.setFinalStatus s

/-- `MaybeDeliverStatus`. -/
def maybeDeliverStatus (c : StreamingCallState) (s : Status) : StreamingCallState :=
  let c : StreamingCallState := { c with
    trailersDone := true
    reader := c.reader.map fun r =>
      { r with msgQueue := if s.isOk then r.msgQueue.setEos else r.msgQueue.setError s } }
  c.setFinalStatus s

/-- A complete message: pushed to the reader's queue, or kept as the writer's single response. -/
def deliver (c : StreamingCallState) (p : Bytes) : StreamingCallState :=
  match c.reader with
  | some r => { c with reader := some { r with msgQueue := r.msgQueue.push p } }
  | none =>
      { c with writer := c.writer.map fun w => { w with responseBytes := p, hasResponse := true } }

/-- The closure posted by `on_data`. -/
def onData (c : StreamingCallState) (maxMsgSize : Nat) (chunk : Bytes) :
    StreamingCallState × List IocTask :=
  if c.closed then (c, [])
  else
    let r := c.lpm.feed maxMsgSize chunk
    let c := r.messages.foldl deliver { c with lpm := r.parser }
    if r.status.isOk then (c, []) else c.fail r.status

/-! ### What the closures leave alone -/

section

variable {α : Type} {f : StreamingCallState → α}

/-- What one message leaves alone, all messages of a chunk leave alone. -/
theorem foldl_deliver_frame (hdeliver : ∀ c p, f (c.deliver p) = f c) (c : StreamingCallState)
    (ps : List Bytes) : f (ps.foldl deliver c) = f c :=
  calc f (ps.foldl deliver c)
      = ps.foldl (fun a _ => a) (f c) := (List.foldl_hom f fun c p => (hdeliver c p).symm).symm
    _ = f c := List.foldl_fixed ps

/-- What closing the call leaves alone, `Fail` leaves alone. -/
theorem fail_frame
    (hclose : ∀ c, f { c with closed := true, timer := c.timer.cancel } = f c)
    (c : StreamingCallState) (s : Status) : f (c.fail s).1 = f c := by
  simp only [fail]
  split
  · rfl
  · exact hclose c

/-- What parsing, delivering and failing leave alone, a data closure leaves alone. -/
theorem onData_frame (hlpm : ∀ c p, f { c with lpm := p } = f c)
    (hdeliver : ∀ c p, f (c.deliver p) = f c) (hfail : ∀ c s, f (c.fail s).1 = f c)
    (c : StreamingCallState) (maxMsgSize : Nat) (chunk : Bytes) :
    f (c.onData maxMsgSize chunk).1 = f c := by
  simp only [onData]
  split
  · rfl
  · have hall := foldl_deliver_frame hdeliver
      { c with lpm := (c.lpm.feed maxMsgSize chunk).parser }
      (c.lpm.feed maxMsgSize chunk).messages
    split
    · exact hall.trans (hlpm c _)
    · exact (hfail _ _).trans (hall.trans (hlpm c _))

end

theorem fail_closed (c : StreamingCallState) (s : Status) : (c.fail s).1.closed = true := by
  simp only [fail]
  split
  · assumption
  · rfl

theorem closed_deliver (c : StreamingCallState) (p : Bytes) : (c.deliver p).closed = c.closed := by
  simp only [deliver]
  split <;> rfl

theorem timer_deliver (c : StreamingCallState) (p : Bytes) : (c.deliver p).timer = c.timer := by
  simp only [deliver]
  split <;> rfl

theorem lpm_deliver (c : StreamingCallState) (p : Bytes) : (c.deliver p).lpm = c.lpm := by
  simp only [deliver]
  split <;> rfl

theorem trailersDone_deliver (c : StreamingCallState) (p : Bytes) :
    (c.deliver p).trailersDone = c.trailersDone := by
  simp only [deliver]
  split <;> rfl

/-- The closure posted by `on_trailers`. -/
def onTrailers (c : StreamingCallState) (trailers : HeaderMap) : StreamingCallState :=
  if c.closed then c else c.maybeDeliverStatus (extractTrailerStatus trailers)

/-- `Attach`: the state, the posted closures, and the limit captured by the data callback if the
data and trailer callbacks are registered. -/
def attach (c : StreamingCallState) (head : ResponseHead) :
    StreamingCallState × List IocTask × Option Nat :=
  match headVerdict head with
  | .rejected s => ((c.fail s).1, (c.fail s).2, none)
  | .trailersOnly s => (c, [.trailersOnly s], none)
  | .accepted => (c, [], some (maxReceiveMessageSize c.ctx))

/-- A closure posted to the `io_context` runs. -/
def runIoc (c : StreamingCallState) : IocTask → StreamingCallState
  | .failed s => c.publishError s
  | .streamClosed errorCode trailersDone =>
      if trailersDone then c else c.publishError (closeStatus errorCode)
  | .trailersOnly s =>
      if c.closed then c
      else
        let c := { c with closed := true, timer := c.timer.cancel }
        c.maybeDeliverStatus s

section

variable {α : Type} {f : StreamingCallState → α}

/-- `Attach` changes the state through `Fail` alone. -/
theorem attach_frame (hfail : ∀ c s, f (c.fail s).1 = f c) (c : StreamingCallState)
    (head : ResponseHead) : f (c.attach head).1 = f c := by
  simp only [attach]
  split
  · exact hfail c _
  · rfl
  · rfl

/-- The trailers change the state through `MaybeDeliverStatus` alone. -/
theorem onTrailers_frame (hstatus : ∀ c s, f (c.maybeDeliverStatus s) = f c)
    (c : StreamingCallState) (trailers : HeaderMap) : f (c.onTrailers trailers) = f c := by
  simp only [onTrailers]
  split
  · rfl
  · exact hstatus c _

/-- What publishing and closing leave alone, a closure on the `io_context` leaves alone. -/
theorem runIoc_frame (herror : ∀ c s, f (c.publishError s) = f c)
    (hstatus : ∀ c s, f (c.maybeDeliverStatus s) = f c)
    (hclose : ∀ c, f { c with closed := true, timer := c.timer.cancel } = f c)
    (c : StreamingCallState) (t : IocTask) : f (c.runIoc t) = f c := by
  cases t with
  | failed s => exact herror c s
  | streamClosed errorCode trailersDone =>
      cases trailersDone with
      | true => rfl
      | false => exact herror c _
  | trailersOnly s =>
      simp only [runIoc]
      split
      · rfl
      · exact (hstatus _ s).trans (hclose c)

end

end StreamingCallState

theorem headVerdict_rejected_not_ok {head : ResponseHead} {s : Status}
    (h : headVerdict head = .rejected s) : s.isOk = false := by
  unfold headVerdict at h
  split at h
  · cases h
    exact Status.fromHttpStatus_not_ok _
  · split at h
    · cases h
      exact Status.fromHttpStatus_not_ok _
    · split at h <;> cases h

end Rpcpio.Client
