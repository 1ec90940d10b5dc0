import Rpcpio.Protocol.Status

/-!
# The asynchronous message queue

`StreamMessageQueue` joins the data callbacks with one consumer coroutine. `Pop` looks at the
buffer, then at the error, then at end-of-stream; with none of them it suspends on a timer that
never fires, and every producer operation wakes it by cancelling the timer. The consumer is
`suspended` while it waits, and `woken` from the cancellation until it runs again.

`pop_result` says what a pass of `Pop` returns, and `NoLostWakeup` that the consumer never sleeps
while a message or an end of the stream is there.
-/

set_option autoImplicit false

namespace Rpcpio.Protocol

/-- `StreamMessageQueue::PopResult`; also the result of the `Read` calls that forward it. -/
structure PopResult where
  status : Status
  data : Option Bytes
  deriving DecidableEq, Repr

namespace PopResult

/-- A message. -/
def message (p : Bytes) : PopResult := ⟨Status.okStatus, some p⟩

/-- Clean end of the stream. -/
def eos : PopResult := ⟨Status.okStatus, none⟩

/-- An error. -/
def error (s : Status) : PopResult := ⟨s, none⟩

end PopResult

/-- The consumer: no `Pop` in progress, waiting on the timer, or with its wake-up queued. -/
inductive Waiter where
  | idle
  | suspended
  | woken
  deriving DecidableEq, Repr

/-- `StreamMessageQueue`. -/
structure StreamMessageQueue where
  buffer : List Bytes
  eos : Bool
  error : Option Status
  waiter : Waiter
  deriving DecidableEq, Repr

namespace StreamMessageQueue

/-- A new queue. -/
def new : StreamMessageQueue := ⟨[], false, none, .idle⟩

/-- `Wake`: cancelling the timer completes a pending wait, and is a no-op otherwise. -/
def wake (q : StreamMessageQueue) : StreamMessageQueue :=
  match q.waiter with
  | .suspended => { q with waiter := .woken }
  | _ => q

/-- `Push`. -/
def push (q : StreamMessageQueue) (p : Bytes) : StreamMessageQueue :=
  { q with buffer := q.buffer ++ [p] }.wake

/-- `SetEos`. -/
def setEos (q : StreamMessageQueue) : StreamMessageQueue := { q with eos := true }.wake

/-- `SetError`. -/
def setError (q : StreamMessageQueue) (s : Status) : StreamMessageQueue :=
  { q with error := some s }.wake

/-- One pass of the loop of `Pop`: a result, or suspension on the timer. -/
def pop (q : StreamMessageQueue) : StreamMessageQueue × Option PopResult :=
  match q.buffer with
  | msg :: rest => ({ q with buffer := rest, waiter := .idle }, some (.message msg))
  | [] =>
      match q.error with
      | some e => ({ q with waiter := .idle }, some (.error e))
      | none =>
          if q.eos then ({ q with waiter := .idle }, some .eos)
          else ({ q with waiter := .suspended }, none)

/-- `Pop` may run: it is called, or resumes after a wake-up. -/
def canPop (q : StreamMessageQueue) : Bool := q.waiter != .suspended

@[simp] theorem wake_buffer (q : StreamMessageQueue) : q.wake.buffer = q.buffer := by
  unfold wake; split <;> rfl

@[simp] theorem wake_eos (q : StreamMessageQueue) : q.wake.eos = q.eos := by
  unfold wake; split <;> rfl

@[simp] theorem wake_error (q : StreamMessageQueue) : q.wake.error = q.error := by
  unfold wake; split <;> rfl

@[simp] theorem wake_waiter_ne (q : StreamMessageQueue) : q.wake.waiter ≠ .suspended := by
  simp only [wake]
  split
  · simp
  · rename_i h
    exact fun hs => h hs

@[simp] theorem push_buffer (q : StreamMessageQueue) (p : Bytes) :
    (q.push p).buffer = q.buffer ++ [p] := wake_buffer _
@[simp] theorem push_eos (q : StreamMessageQueue) (p : Bytes) : (q.push p).eos = q.eos :=
  wake_eos _
@[simp] theorem push_error (q : StreamMessageQueue) (p : Bytes) : (q.push p).error = q.error :=
  wake_error _
@[simp] theorem setEos_buffer (q : StreamMessageQueue) : q.setEos.buffer = q.buffer :=
  wake_buffer _
@[simp] theorem setEos_eos (q : StreamMessageQueue) : q.setEos.eos = true := wake_eos _
@[simp] theorem setEos_error (q : StreamMessageQueue) : q.setEos.error = q.error := wake_error _
@[simp] theorem setError_buffer (q : StreamMessageQueue) (s : Status) :
    (q.setError s).buffer = q.buffer := wake_buffer _
@[simp] theorem setError_eos (q : StreamMessageQueue) (s : Status) :
    (q.setError s).eos = q.eos := wake_eos _
@[simp] theorem setError_error (q : StreamMessageQueue) (s : Status) :
    (q.setError s).error = some s := wake_error _

/-- Something is there for the consumer. -/
def Ready (q : StreamMessageQueue) : Prop := q.buffer ≠ [] ∨ q.error.isSome ∨ q.eos = true

/-- The consumer never sleeps while something is there for it. -/
def NoLostWakeup (q : StreamMessageQueue) : Prop := q.Ready → q.waiter ≠ .suspended

theorem new_noLostWakeup : new.NoLostWakeup := fun _ => by simp [new]

theorem push_noLostWakeup (q : StreamMessageQueue) (p : Bytes) : (q.push p).NoLostWakeup :=
  fun _ => wake_waiter_ne _

theorem setEos_noLostWakeup (q : StreamMessageQueue) : q.setEos.NoLostWakeup :=
  fun _ => wake_waiter_ne _

theorem setError_noLostWakeup (q : StreamMessageQueue) (s : Status) :
    (q.setError s).NoLostWakeup :=
  fun _ => wake_waiter_ne _

/-- A pass of `Pop` suspends only on an empty queue without an end. -/
theorem pop_noLostWakeup (q : StreamMessageQueue) : q.pop.1.NoLostWakeup := by
  intro hready
  simp only [pop] at hready ⊢
  cases hb : q.buffer with
  | cons msg rest => simp
  | nil =>
      cases he : q.error with
      | some e => simp
      | none =>
          cases heos : q.eos with
          | true => simp
          | false =>
              rw [hb] at hready
              simp [he, heos, Ready] at hready

/-- The end of the stream, once the buffer is drained: an error before end-of-stream. -/
def ending (q : StreamMessageQueue) : Option PopResult :=
  match q.error with
  | some e => some (.error e)
  | none => if q.eos then some .eos else none

/-- A pass of `Pop` returns the front message, else the end, else it suspends; the end stays. -/
theorem pop_result (q : StreamMessageQueue) :
    (∃ msg rest, q.buffer = msg :: rest ∧ q.pop.2 = some (.message msg) ∧
      q.pop.1.buffer = rest) ∨
    (q.buffer = [] ∧ q.pop.2 = q.ending ∧ q.pop.1.buffer = []) := by
  simp only [pop, ending]
  cases hb : q.buffer with
  | cons msg rest => exact Or.inl ⟨msg, rest, rfl, rfl, rfl⟩
  | nil =>
      cases he : q.error with
      | some e => exact Or.inr ⟨rfl, rfl, rfl⟩
      | none =>
          cases heos : q.eos with
          | true => exact Or.inr ⟨rfl, by simp, by simp⟩
          | false => exact Or.inr ⟨rfl, by simp, by simp⟩

/-- A pass of `Pop` reports no error but the one that is set. -/
theorem pop_error_status {q : StreamMessageQueue} {res : PopResult} (h : q.pop.2 = some res)
    (hres : res.status.isOk = false) : q.error = some res.status := by
  rcases pop_result q with ⟨msg, rest, _, hp, _⟩ | ⟨_, hp, _⟩
  · rw [hp, Option.some.injEq] at h
    subst h
    cases hres
  · rw [hp] at h
    unfold ending at h
    split at h
    · rename_i e he
      rw [Option.some.injEq] at h
      subst h
      exact he
    · split at h
      · rw [Option.some.injEq] at h
        subst h
        cases hres
      · cases h

@[simp] theorem pop_error (q : StreamMessageQueue) : q.pop.1.error = q.error := by
  simp only [pop]
  cases hb : q.buffer with
  | cons msg rest => rfl
  | nil =>
      cases he : q.error with
      | some e => rfl
      | none => cases heos : q.eos <;> rfl

@[simp] theorem pop_eos (q : StreamMessageQueue) : q.pop.1.eos = q.eos := by
  simp only [pop]
  cases hb : q.buffer with
  | cons msg rest => rfl
  | nil =>
      cases he : q.error with
      | some e => rfl
      | none => cases heos : q.eos <;> simp

end StreamMessageQueue

end Rpcpio.Protocol
