import Rpcpio.Library.Machine
import Rpcpio.Protocol.StreamQueue

/-!
# Interleavings of the queue and its consumer

`Pop` checks the queue, arms the timer and suspends, in one handler of the executor; the producers
run between the handlers. `QueueRun.machine` takes these steps one by one, and `pass_eq_pop` says
that a pass of them is `StreamMessageQueue.pop`. The consumer that has found the queue empty stays
in its handler until it sleeps (`Sound.empty`), so no event slips in between and none is lost
(`queue_interleavings`).
-/

set_option autoImplicit false

namespace Rpcpio.Protocol

open Library

/-- Where the handler that runs `Pop` stands; `outside` when none runs. -/
inductive PopPhase where
  | outside
  | checking
  | arming
  | waiting
  deriving DecidableEq, Repr

/-- The steps of the producers, and those of the consumer. -/
inductive QueueEvent where
  | push (p : Bytes)
  | setEos
  | setError (s : Status)
  /-- `Pop` is called. -/
  | call
  /-- The wait was cancelled, and its completion runs. -/
  | resume
  /-- The checks of the loop. -/
  | check
  /-- `expires_at`. -/
  | arm
  /-- `async_wait`. -/
  | wait
  deriving DecidableEq, Repr

/-- The queue, the phase of its one consumer, and what `Pop` has returned. -/
structure QueueRun where
  queue : StreamMessageQueue
  phase : PopPhase
  results : List PopResult
  deriving DecidableEq, Repr

namespace QueueRun

/-- A new queue, with no `Pop` in progress. -/
def start : QueueRun := ⟨.new, .outside, []⟩

/-- `Pop` returns. -/
def finish (u : QueueRun) (r : PopResult) : QueueRun :=
  { u with phase := .outside, results := u.results ++ [r] }

/-- The checks of the loop, with the queue of the handler that runs. -/
def check (u : QueueRun) : QueueRun :=
  match u.queue.buffer with
  | msg :: rest => { u with queue := { u.queue with buffer := rest } }.finish (.message msg)
  | [] =>
      match u.queue.error with
      | some e => u.finish (.error e)
      | none => if u.queue.eos then u.finish .eos else { u with phase := .arming }

/-- One step. A handler runs to its end, so the producers and the resumption wait for it. -/
def step (u : QueueRun) : QueueEvent → Option QueueRun
  | .push p => if u.phase = .outside then some { u with queue := u.queue.push p } else none
  | .setEos => if u.phase = .outside then some { u with queue := u.queue.setEos } else none
  | .setError s => if u.phase = .outside then some { u with queue := u.queue.setError s } else none
  | .call =>
      if u.phase = .outside ∧ u.queue.waiter = .idle then some { u with phase := .checking }
      else none
  | .resume =>
      if u.phase = .outside ∧ u.queue.waiter = .woken then
        some { u with queue := { u.queue with waiter := .idle }, phase := .checking }
      else none
  | .check => if u.phase = .checking then some u.check else none
  | .arm =>
      -- setting the time cancels what waits on the timer
      if u.phase = .arming then some { u with queue := u.queue.wake, phase := .waiting } else none
  | .wait =>
      if u.phase = .waiting then
        some { u with queue := { u.queue with waiter := .suspended }, phase := .outside }
      else none

/-- The queue and its consumer as a machine. -/
def machine : Machine QueueRun QueueEvent := ⟨step⟩

/-- The data that `Pop` has returned. -/
def delivered (u : QueueRun) : List Bytes := u.results.filterMap PopResult.data

/-! ## What the checks do -/

/-- The checks return the front message, return the end, or find nothing. -/
inductive Checked (u : QueueRun) : QueueRun → Prop where
  | message {msg : Bytes} {rest : List Bytes} (hbuf : u.queue.buffer = msg :: rest) :
      Checked u ({ u with queue := { u.queue with buffer := rest } }.finish (.message msg))
  | ending {r : PopResult} (hbuf : u.queue.buffer = []) (hend : u.queue.ending = some r) :
      Checked u (u.finish r)
  | empty (hbuf : u.queue.buffer = []) (hend : u.queue.ending = none) :
      Checked u { u with phase := .arming }

theorem checked_check (u : QueueRun) : Checked u u.check := by
  rw [check]
  cases hbuf : u.queue.buffer with
  | cons msg rest => exact .message hbuf
  | nil =>
      cases herr : u.queue.error with
      | some e => exact .ending hbuf (by rw [StreamMessageQueue.ending, herr])
      | none =>
          cases heos : u.queue.eos with
          | true => exact .ending hbuf (by rw [StreamMessageQueue.ending, herr, heos]; rfl)
          | false => exact .empty hbuf (by rw [StreamMessageQueue.ending, herr, heos]; rfl)

/-- What each event finds and does. -/
inductive Moved (u : QueueRun) : QueueEvent → QueueRun → Prop where
  | push (hphase : u.phase = .outside) (p : Bytes) :
      Moved u (.push p) { u with queue := u.queue.push p }
  | setEos (hphase : u.phase = .outside) : Moved u .setEos { u with queue := u.queue.setEos }
  | setError (hphase : u.phase = .outside) (s : Status) :
      Moved u (.setError s) { u with queue := u.queue.setError s }
  | call (hphase : u.phase = .outside) (hidle : u.queue.waiter = .idle) :
      Moved u .call { u with phase := .checking }
  | resume (hphase : u.phase = .outside) (hwoken : u.queue.waiter = .woken) :
      Moved u .resume { u with queue := { u.queue with waiter := .idle }, phase := .checking }
  | check (hphase : u.phase = .checking) {v : QueueRun} (hv : Checked u v) : Moved u .check v
  | arm (hphase : u.phase = .arming) :
      Moved u .arm { u with queue := u.queue.wake, phase := .waiting }
  | wait (hphase : u.phase = .waiting) :
      Moved u .wait
        { u with queue := { u.queue with waiter := .suspended }, phase := .outside }

theorem moved_step {u v : QueueRun} {e : QueueEvent} (h : u.step e = some v) : Moved u e v := by
  -- every event is guarded by the phase
  cases e <;>
    simp only [step, Option.ite_none_right_eq_some, Option.some.injEq] at h <;>
    obtain ⟨hguard, rfl⟩ := h
  case push p => exact .push hguard p
  case setEos => exact .setEos hguard
  case setError s => exact .setError hguard s
  case call => exact .call hguard.1 hguard.2
  case resume => exact .resume hguard.1 hguard.2
  case check => exact .check hguard (checked_check u)
  case arm => exact .arm hguard
  case wait => exact .wait hguard

/-- Nothing is there if the buffer is empty and the stream has no end. -/
theorem not_ready_iff {q : StreamMessageQueue} :
    ¬ q.Ready ↔ q.buffer = [] ∧ q.ending = none := by
  rw [StreamMessageQueue.Ready, StreamMessageQueue.ending]
  cases q.error with
  | some e => simp
  | none => cases q.eos <;> simp

/-- The end of a stream carries no data. -/
theorem data_of_ending {q : StreamMessageQueue} {r : PopResult} (h : q.ending = some r) :
    r.data = none := by
  rw [StreamMessageQueue.ending] at h
  split at h
  · cases h
    rfl
  · split at h
    · cases h
      rfl
    · cases h

/-! ## The pass and `pop` -/

/-- **A pass of the steps is `pop`**: it returns what `pop` returns, or it arms the timer and sleeps. -/
theorem pass_eq_pop {u : QueueRun} (hphase : u.phase = .checking) (hwaiter : u.queue.waiter = .idle) :
    (∃ r, u.queue.pop.2 = some r ∧
      machine.run u [.check] = some ⟨u.queue.pop.1, .outside, u.results ++ [r]⟩) ∨
    (u.queue.pop.2 = none ∧
      machine.run u [.check, .arm, .wait] = some ⟨u.queue.pop.1, .outside, u.results⟩) := by
  obtain ⟨⟨buffer, eos, error, waiter⟩, phase, results⟩ := u
  dsimp only at hphase hwaiter
  subst hphase hwaiter
  cases buffer with
  | cons msg rest => exact Or.inl ⟨_, rfl, rfl⟩
  | nil =>
      cases error with
      | some e => exact Or.inl ⟨_, rfl, rfl⟩
      | none =>
          cases eos with
          | true => exact Or.inl ⟨_, rfl, rfl⟩
          | false => exact Or.inr ⟨rfl, rfl⟩

/-! ## The invariant -/

/-- What holds between any two steps. -/
structure Sound (u : QueueRun) : Prop where
  /-- The consumer does not sleep while something is there. -/
  awake : u.queue.NoLostWakeup
  /-- A consumer that runs does not wait. -/
  running : u.phase ≠ .outside → u.queue.waiter = .idle
  /-- What the checks found empty is still empty. -/
  empty : u.phase = .arming ∨ u.phase = .waiting → ¬ u.queue.Ready

/-- Between the handlers only the consumer's sleep matters. -/
theorem Sound.of_outside {u : QueueRun} (hphase : u.phase = .outside)
    (hawake : u.queue.NoLostWakeup) : Sound u := by
  refine ⟨hawake, fun h => absurd hphase h, ?_⟩
  rw [hphase]
  rintro (h | h) <;> cases h

theorem sound_start : Sound start := .of_outside rfl StreamMessageQueue.new_noLostWakeup

/-- A consumer that runs is not asleep. -/
theorem noLostWakeup_of_idle {q : StreamMessageQueue} (h : q.waiter = .idle) : q.NoLostWakeup := by
  intro _
  rw [h]
  decide

theorem Sound.checked {u v : QueueRun} (hu : Sound u) (hphase : u.phase = .checking)
    (h : Checked u v) : Sound v := by
  have hidle : u.queue.waiter = .idle := hu.running (by rw [hphase]; decide)
  cases h with
  | message hbuf => exact .of_outside rfl (noLostWakeup_of_idle hidle)
  | ending hbuf hend => exact .of_outside rfl (noLostWakeup_of_idle hidle)
  | empty hbuf hend =>
      exact ⟨noLostWakeup_of_idle hidle, fun _ => hidle, fun _ => not_ready_iff.2 ⟨hbuf, hend⟩⟩

theorem sound_step {u v : QueueRun} {e : QueueEvent} (hu : Sound u) (h : u.step e = some v) :
    Sound v := by
  cases moved_step h with
  | push hphase p => exact .of_outside hphase (u.queue.push_noLostWakeup p)
  | setEos hphase => exact .of_outside hphase u.queue.setEos_noLostWakeup
  | setError hphase s => exact .of_outside hphase (u.queue.setError_noLostWakeup s)
  | call hphase hidle => exact ⟨hu.awake, fun _ => hidle, by rintro (h | h) <;> cases h⟩
  | resume hphase hwoken =>
      exact ⟨noLostWakeup_of_idle rfl, fun _ => rfl, by rintro (h | h) <;> cases h⟩
  | check hphase hv => exact hu.checked hphase hv
  | arm hphase =>
      have hidle : u.queue.waiter = .idle := hu.running (by rw [hphase]; decide)
      -- nobody waits on the timer, so setting it cancels nothing
      have hwake : u.queue.wake = u.queue := by rw [StreamMessageQueue.wake, hidle]
      rw [hwake]
      exact ⟨hu.awake, fun _ => hidle, fun _ => hu.empty (Or.inl hphase)⟩
  | wait hphase =>
      -- the consumer goes to sleep on what it found empty
      exact .of_outside rfl fun hready => absurd hready (hu.empty (Or.inr hphase))

/-! ## What the events determine -/

/-- The message that an event pushes. -/
def pushedBy : QueueEvent → List Bytes
  | .push p => [p]
  | _ => []

/-- The messages pushed by the events, in order. -/
def pushed (es : List QueueEvent) : List Bytes := es.flatMap pushedBy

/-- The error after an event. -/
def errorAfter (error : Option Status) : QueueEvent → Option Status
  | .setError s => some s
  | _ => error

/-- The error that the events set last. -/
def lastError (es : List QueueEvent) : Option Status := es.foldl errorAfter none

/-- Whether the stream has ended after an event. -/
def eosAfter (eos : Bool) : QueueEvent → Bool
  | .setEos => true
  | _ => eos

/-- Whether an event ended the stream. -/
def ended (es : List QueueEvent) : Bool := es.foldl eosAfter false

/-- What a step does to the messages and to the end. -/
theorem step_effect {u v : QueueRun} {e : QueueEvent} (h : u.step e = some v) :
    v.delivered ++ v.queue.buffer = (u.delivered ++ u.queue.buffer) ++ pushedBy e ∧
      v.queue.error = errorAfter u.queue.error e ∧ v.queue.eos = eosAfter u.queue.eos e := by
  cases moved_step h with
  | check hphase hv =>
      cases hv with
      | message hbuf =>
          refine ⟨?_, rfl, rfl⟩
          rw [hbuf]
          simp [delivered, finish, pushedBy, PopResult.message]
      | ending hbuf hend =>
          refine ⟨?_, rfl, rfl⟩
          simp [delivered, finish, pushedBy, data_of_ending hend]
      | empty hbuf hend => exact ⟨(List.append_nil _).symm, rfl, rfl⟩
  | _ => simp [delivered, pushedBy, errorAfter, eosAfter]

/-- The messages are pushed, returned and waiting in one order. -/
theorem delivered_append_buffer {es : List QueueEvent} {u : QueueRun}
    (h : machine.run start es = some u) : u.delivered ++ u.queue.buffer = pushed es :=
  Machine.run_ledger (M := machine) (f := fun u => u.delivered ++ u.queue.buffer) (g := pushedBy)
    (fun _ _ _ h => (step_effect h).1) h

theorem error_eq_lastError {es : List QueueEvent} {u : QueueRun}
    (h : machine.run start es = some u) : u.queue.error = lastError es :=
  Machine.run_foldl (M := machine) (f := fun u => u.queue.error)
    (fun _ _ _ h => (step_effect h).2.1) es start u h

theorem eos_eq_ended {es : List QueueEvent} {u : QueueRun}
    (h : machine.run start es = some u) : u.queue.eos = ended es :=
  Machine.run_foldl (M := machine) (f := fun u => u.queue.eos)
    (fun _ _ _ h => (step_effect h).2.2) es start u h

/-- Only the checks return, and without data only at the end of a drained queue. -/
theorem ending_of_return {u v : QueueRun} {e : QueueEvent} {r : PopResult}
    (h : u.step e = some v) (hr : v.results = u.results ++ [r]) (hdata : r.data = none) :
    u.queue.buffer = [] ∧ u.queue.ending = some r := by
  cases moved_step h with
  | check hphase hv =>
      cases hv with
      | message hbuf =>
          have hlast := List.append_cancel_left hr
          cases hlast
          cases hdata
      | ending hbuf hend =>
          have hlast := List.append_cancel_left hr
          cases hlast
          exact ⟨hbuf, hend⟩
      | empty hbuf hend => simp at hr
  | _ => simp at hr

/-- **The queue delivers in order, and no wake-up is lost.** After every interleaving, what was
returned is a prefix of what was pushed and the buffer is the rest; whatever returns next without
data does so when everything pushed was returned, and is the error if one was set, else the end of
the stream; and the consumer does not sleep while something is there. -/
theorem queue_interleavings {es : List QueueEvent} {u : QueueRun}
    (h : machine.run start es = some u) :
    u.delivered ++ u.queue.buffer = pushed es ∧
      (∀ e v r, u.step e = some v → v.results = u.results ++ [r] → r.data = none →
        u.delivered = pushed es ∧
          ((∃ s, lastError es = some s ∧ r = .error s) ∨
            (lastError es = none ∧ ended es = true ∧ r = .eos))) ∧
      ¬ (u.queue.waiter = .suspended ∧
        (u.queue.buffer ≠ [] ∨ u.queue.eos = true ∨ u.queue.error.isSome)) := by
  have hledger := delivered_append_buffer h
  refine ⟨hledger, ?_, ?_⟩
  · intro e v r hstep hr hdata
    obtain ⟨hbuf, hend⟩ := ending_of_return hstep hr hdata
    rw [hbuf, List.append_nil] at hledger
    refine ⟨hledger, ?_⟩
    rw [StreamMessageQueue.ending, error_eq_lastError h, eos_eq_ended h] at hend
    -- the error is looked at before the end of the stream
    cases herr : lastError es with
    | some s =>
        rw [herr] at hend
        exact Or.inl ⟨s, rfl, (Option.some.inj hend).symm⟩
    | none =>
        rw [herr] at hend
        simp only [Option.ite_none_right_eq_some, Option.some.injEq] at hend
        exact Or.inr ⟨rfl, hend.1, hend.2.symm⟩
  · rintro ⟨hsleep, hready⟩
    have hsound : Sound u := Machine.run_invariant (M := machine)
      (fun _ _ _ hu h => sound_step hu h) es start u sound_start h
    refine hsound.awake ?_ hsleep
    rcases hready with hbuf | heos | herr
    · exact Or.inl hbuf
    · exact Or.inr (Or.inr heos)
    · exact Or.inr (Or.inl herr)

/-- A run in which two messages and the end arrive before the sleeping consumer resumes. -/
def coalesced : List QueueEvent :=
  [.call, .check, .arm, .wait, .push [1], .push [2], .setEos, .resume, .check, .call, .check, .call]

/-- The queue after this run. -/
def afterCoalesced : QueueRun :=
  ⟨⟨[], true, none, .idle⟩, .checking, [.message [1], .message [2]]⟩

theorem queue_interleavings_coalesced :
    afterCoalesced.delivered ++ afterCoalesced.queue.buffer = pushed coalesced ∧
      (∀ e v r, afterCoalesced.step e = some v → v.results = afterCoalesced.results ++ [r] →
        r.data = none → afterCoalesced.delivered = pushed coalesced ∧
          ((∃ s, lastError coalesced = some s ∧ r = .error s) ∨
            (lastError coalesced = none ∧ ended coalesced = true ∧ r = .eos))) ∧
      ¬ (afterCoalesced.queue.waiter = .suspended ∧
        (afterCoalesced.queue.buffer ≠ [] ∨ afterCoalesced.queue.eos = true ∨
          afterCoalesced.queue.error.isSome)) :=
  queue_interleavings (show machine.run start coalesced = some afterCoalesced from rfl)

end QueueRun

end Rpcpio.Protocol
