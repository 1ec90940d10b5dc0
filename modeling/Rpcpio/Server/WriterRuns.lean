import Rpcpio.Server.ServerStreamingCallState

/-!
# Runs of the server writer

A `RawServerWriterImpl` from the installation of its generator on: writes, calls of `Finish` by any
party, and polls of the session until the end of the data, in any order. The first finishing event,
a `Finish` or a write over the limit, decides the trailers (`Inv.trailers`); what was accepted until
then is emitted whole and in order, and the trailers are written by the poll that ends the data
(`writer_terminal_once`).
-/

set_option autoImplicit false

namespace Rpcpio.Server

open Rpcpio.Library Rpcpio.Protocol

/-- The status of a write after the end. -/
def writeAfterFinish : Status :=
  Status.of .internal (text "RawServerWriterImpl::Write called after Finish")

/-- The status of a message that does not fit in a frame. -/
def unframeable : Status := Status.of .resourceExhausted (text "message too large to frame")

namespace RawServerWriterImpl

/-- What a write does: it comes too late, it is over the limit and finishes the stream, it does not
fit in a frame, or its frame is queued. -/
inductive Written (w : RawServerWriterImpl) (p : Bytes) :
    RawServerWriterImpl × Status × List ResponseCall → Prop where
  | late (hfin : w.finished = true) : Written w p (w, writeAfterFinish, [])
  | large (hfin : w.finished = false) (hmax : w.maxResponseSize < p.length) :
      Written w p ((w.finish responseTooLarge).1, responseTooLarge, [.resume])
  | unframed (hfin : w.finished = false) (hmax : p.length ≤ w.maxResponseSize)
      (hlen : 2 ^ 32 ≤ p.length) : Written w p (w, unframeable, [])
  | queued (hfin : w.finished = false) (hmax : p.length ≤ w.maxResponseSize)
      (hlen : p.length < 2 ^ 32) :
      Written w p ({ w with pending := w.pending ++ [frameOf p] }, Status.okStatus, [.resume])

theorem write_late {w : RawServerWriterImpl} (hfin : w.finished = true) (p : Bytes) :
    w.write p = (w, writeAfterFinish, []) := if_pos hfin

theorem finish_late {w : RawServerWriterImpl} (hfin : w.finished = true) (s : Status) :
    w.finish s = (w, []) := if_pos hfin

theorem written_write (w : RawServerWriterImpl) (p : Bytes) : Written w p (w.write p) := by
  cases hfin : w.finished with
  | true =>
      rw [write_late hfin]
      exact .late hfin
  | false =>
      by_cases hmax : w.maxResponseSize < p.length
      · have hwrite : w.write p = ((w.finish responseTooLarge).1, responseTooLarge, [.resume]) := by
          simp only [write, hfin, Bool.false_eq_true, if_false, if_pos hmax, finish_open hfin]
          rfl
        rw [hwrite]
        exact .large hfin hmax
      · rcases Nat.lt_or_ge p.length (2 ^ 32) with hlen | hlen
        · rw [write_ok hfin (Nat.not_lt.1 hmax) hlen]
          exact .queued hfin (Nat.not_lt.1 hmax) hlen
        · have hwrite : w.write p = (w, unframeable, []) := by
            rw [write, if_neg (by simp [hfin]), if_neg hmax, encodeFrame_eq_none hlen]
            rfl
          rw [hwrite]
          exact .unframed hfin (Nat.not_lt.1 hmax) hlen

end RawServerWriterImpl

/-! ## The machine -/

/-- A call of any party on the writer, or a poll of the generator for a buffer of `len` bytes. -/
inductive WriterEvent where
  | perform (c : WriterCall)
  | poll (len : Nat)
  deriving DecidableEq, Repr

/-- The writer, the payloads of the writes that returned `OK`, the bytes emitted, the calls on the
response, and whether a poll has returned the end of the data. -/
structure WriterRun where
  writer : RawServerWriterImpl
  accepted : List Bytes
  emitted : Bytes
  calls : List ResponseCall
  eof : Bool
  deriving DecidableEq, Repr

namespace WriterRun

/-- A new writer. -/
def start (maxResponseSize : Nat) : WriterRun := ⟨.new maxResponseSize, [], [], [], false⟩

/-- What the session makes of a result of the generator. -/
def take (u : WriterRun) : GeneratorResult → WriterRun
  | .data bytes => { u with emitted := u.emitted ++ bytes }
  | .eof _ => { u with eof := true }
  | .deferred => u

/-- One event; the session does not poll behind the end of the data. -/
def step (u : WriterRun) : WriterEvent → Option WriterRun
  | .perform (.write p) =>
      let r := u.writer.write p
      some { u with
        writer := r.1
        accepted := if r.2.1.isOk then u.accepted ++ [p] else u.accepted
        calls := u.calls ++ r.2.2 }
  | .perform (.finish s) =>
      let r := u.writer.finish s
      some { u with writer := r.1, calls := u.calls ++ r.2 }
  | .poll len =>
      if u.eof then none
      else
        let r := u.writer.generate len
        some ({ u with writer := r.1, calls := u.calls ++ r.2.2 }.take r.2.1)

/-- The writer as a machine. -/
def machine : Machine WriterRun WriterEvent := ⟨step⟩

/-- The status with which an event finishes an open stream. -/
def finishing (maxResponseSize : Nat) : WriterEvent → Option Status
  | .perform (.finish s) => some s
  | .perform (.write p) => if maxResponseSize < p.length then some responseTooLarge else none
  | .poll _ => none

/-- The calls other than those that wake the generator. -/
def otherCalls (u : WriterRun) : List ResponseCall := u.calls.filter (· ≠ .resume)

/-! ## The invariant -/

/-- The trailers of a stream that was finished with a status. -/
def trailersOf : Option Status → HeaderMap
  | none => []
  | some s => buildTrailers s [] []

/-- A writer of the limit `max` on which `fin` was the first finishing event, if any. -/
structure Inv (max : Nat) (u : WriterRun) (fin : Option Status) : Prop where
  limit : u.writer.maxResponseSize = max
  finished : u.writer.finished = fin.isSome
  trailers : u.writer.trailHdrs = trailersOf fin
  wf : u.writer.outbox.WellFormed
  /-- What was emitted and what is queued are the frames of what was accepted. -/
  sent : u.emitted ++ u.writer.outbox.unsent = (u.accepted.map frameOf).flatten
  sized : ∀ p ∈ u.accepted, p.length ≤ max
  running : u.eof = false → u.otherCalls = []
  ended : u.eof = true → u.writer.pending = [] ∧ fin.isSome ∧
    u.otherCalls = [.writeTrailer (trailersOf fin)]

theorem inv_start (max : Nat) : Inv max (start max) none where
  limit := rfl
  finished := rfl
  trailers := rfl
  wf := Outbox.empty_wellFormed
  sent := rfl
  sized := by simp [start]
  running := fun _ => rfl
  ended := by simp [start]

namespace Inv

variable {max : Nat} {u : WriterRun} {fin : Option Status}

/-- At the end of the data a stream was finished. -/
theorem eof_false (hu : Inv max u fin) (hfin : u.writer.finished = false) : u.eof = false := by
  cases heof : u.eof with
  | false => rfl
  | true =>
      have hsome := (hu.ended heof).2.1
      rw [← hu.finished, hfin] at hsome
      cases hsome

theorem fin_eq_none (hu : Inv max u fin) (hfin : u.writer.finished = false) : fin = none := by
  rw [hu.finished] at hfin
  exact Option.not_isSome_iff_eq_none.1 (by rw [hfin]; decide)

/-- A write within the limit finishes nothing. -/
theorem finishing_eq_none (hu : Inv max u fin) {p : Bytes}
    (hmax : p.length ≤ u.writer.maxResponseSize) : finishing max (.perform (.write p)) = none :=
  if_neg (by rw [← hu.limit]; omega)

/-- A call that is too late changes nothing. -/
theorem late (hu : Inv max u fin) (hfin : u.writer.finished = true) (s : Option Status) :
    Inv max u (fin.or s) := by
  have hsome : fin.or s = fin := by
    rw [hu.finished] at hfin
    exact Option.or_of_isSome hfin
  rw [hsome]
  exact hu

/-- `Finish` on an open stream builds the trailers. -/
theorem finish (hu : Inv max u fin) (hfin : u.writer.finished = false) (s : Status) :
    Inv max { u with writer := (u.writer.finish s).1, calls := u.calls ++ [.resume] } (some s) := by
  have hnone := hu.fin_eq_none hfin
  subst hnone
  have heof := hu.eof_false hfin
  have hcalls : (u.calls ++ [ResponseCall.resume]).filter (· ≠ .resume) = [] := by
    rw [List.filter_append]
    exact List.append_eq_nil_iff.2 ⟨hu.running heof, rfl⟩
  rw [RawServerWriterImpl.finish_open hfin]
  exact
    { limit := hu.limit
      finished := rfl
      trailers := by
        show buildTrailers s [] u.writer.trailHdrs = buildTrailers s [] []
        rw [hu.trailers]
        rfl
      wf := hu.wf
      sent := hu.sent
      sized := hu.sized
      running := fun _ => hcalls
      ended := fun h => by rw [heof] at h; cases h }

/-- An accepted write queues its frame. -/
theorem queue (hu : Inv max u fin) (hfin : u.writer.finished = false) {p : Bytes}
    (hmax : p.length ≤ u.writer.maxResponseSize) :
    Inv max
      { u with
        writer := { u.writer with pending := u.writer.pending ++ [frameOf p] }
        accepted := u.accepted ++ [p]
        calls := u.calls ++ [.resume] } fin := by
  have heof := hu.eof_false hfin
  have hcalls : (u.calls ++ [ResponseCall.resume]).filter (· ≠ .resume) = [] := by
    rw [List.filter_append]
    exact List.append_eq_nil_iff.2 ⟨hu.running heof, rfl⟩
  exact
    { limit := hu.limit
      finished := hu.finished
      trailers := hu.trailers
      wf := Outbox.enqueue_wellFormed hu.wf (frameOf_ne_nil p)
      sent := by
        have hunsent := Outbox.enqueue_unsent hu.wf (frameOf p)
        show u.emitted ++ (u.writer.outbox.enqueue (frameOf p)).unsent = _
        rw [hunsent, ← List.append_assoc, hu.sent]
        simp
      sized := by
        intro q hq
        rcases List.mem_append.1 hq with hq | hq
        · exact hu.sized q hq
        · rw [List.mem_singleton.1 hq, ← hu.limit]
          exact hmax
      running := fun _ => hcalls
      ended := fun h => by rw [heof] at h; cases h }

/-- A poll moves bytes out of the queue, or ends the data of a finished stream. -/
theorem poll (hu : Inv max u fin) (heof : u.eof = false) (len : Nat) :
    Inv max
      ({ u with
        writer := (u.writer.generate len).1
        calls := u.calls ++ (u.writer.generate len).2.2 }.take (u.writer.generate len).2.1) fin := by
  by_cases hpending : u.writer.pending = []
  · cases hfin : u.writer.finished with
    | false =>
        -- nothing to emit yet: the generator is deferred
        have hgen : u.writer.generate len = (u.writer, .deferred, []) := by
          rw [RawServerWriterImpl.generate, hpending, hfin]
          rfl
        rw [hgen, List.append_nil]
        exact hu
    | true =>
        have hgen : u.writer.generate len =
            (u.writer, .eof true, [.writeTrailer u.writer.trailHdrs]) := by
          rw [RawServerWriterImpl.generate, hpending, hfin]
          rfl
        rw [hgen]
        -- this poll writes the trailers and ends the data
        refine ⟨hu.limit, hu.finished, hu.trailers, hu.wf, hu.sent, hu.sized, ?_, ?_⟩
        · intro h
          cases h
        · intro _
          refine ⟨hpending, by rw [← hu.finished]; exact hfin, ?_⟩
          show (u.calls ++ [ResponseCall.writeTrailer u.writer.trailHdrs]).filter (· ≠ .resume) = _
          have hnone : u.calls.filter (· ≠ .resume) = [] := hu.running heof
          rw [List.filter_append, hnone, hu.trailers]
          rfl
  · -- bytes move from the queue to what was emitted, in order
    rw [RawServerWriterImpl.generate_drain len hu.wf hpending, List.append_nil]
    have hunsent := Outbox.drain_unsent hu.wf len
    exact
      { limit := hu.limit
        finished := hu.finished
        trailers := hu.trailers
        wf := Outbox.drain_wellFormed hu.wf len
        sent := by
          show (u.emitted ++ (u.writer.outbox.drain len).2) ++
            (u.writer.outbox.drain len).1.unsent = _
          rw [List.append_assoc, hunsent]
          exact hu.sent
        sized := hu.sized
        running := fun _ => hu.running heof
        ended := fun h => by
          have hrunning : u.eof = true := h
          rw [heof] at hrunning
          cases hrunning }

end Inv

/-- Each event keeps the invariant, with the first finishing event. -/
theorem inv_step {max : Nat} {u v : WriterRun} {fin : Option Status} {e : WriterEvent}
    (hu : Inv max u fin) (h : u.step e = some v) : Inv max v (fin.or (finishing max e)) := by
  cases e with
  | poll len =>
      simp only [step, Option.ite_none_left_eq_some, Option.some.injEq] at h
      obtain ⟨heof, rfl⟩ := h
      rw [finishing, Option.or_none]
      exact hu.poll (by simpa using heof) len
  | perform c =>
      cases c with
      | finish s =>
          cases h
          cases hfin : u.writer.finished with
          | true =>
              rw [RawServerWriterImpl.finish_late hfin, List.append_nil]
              exact hu.late hfin _
          | false =>
              have hnone := hu.fin_eq_none hfin
              have hinv := hu.finish hfin s
              rw [hnone, Option.none_or]
              rw [RawServerWriterImpl.finish_open hfin] at hinv ⊢
              exact hinv
      | write p =>
          cases h
          have hwritten := u.writer.written_write p
          generalize u.writer.write p = r at hwritten ⊢
          -- only a write over the limit on an open stream is a finishing event
          cases hwritten with
          | late hfin =>
              rw [List.append_nil]
              exact hu.late hfin _
          | large hfin hmax =>
              have hclose : finishing max (.perform (.write p)) = some responseTooLarge :=
                if_pos (by rw [← hu.limit]; exact hmax)
              rw [hu.fin_eq_none hfin, Option.none_or, hclose]
              exact hu.finish hfin responseTooLarge
          | unframed hfin hmax hlen =>
              rw [hu.finishing_eq_none hmax, Option.or_none, List.append_nil]
              exact hu
          | queued hfin hmax hlen =>
              rw [hu.finishing_eq_none hmax, Option.or_none]
              exact hu.queue hfin hmax

/-- The first finishing event of a list, by a fold from the front. -/
theorem foldl_or (max : Nat) (es : List WriterEvent) (fin : Option Status) :
    es.foldl (fun fin e => fin.or (finishing max e)) fin =
      fin.or (es.findSome? (finishing max)) := by
  induction es generalizing fin with
  | nil => exact (Option.or_none).symm
  | cons e es ih =>
      rw [List.foldl_cons, ih, Option.or_assoc, List.findSome?_cons]
      cases finishing max e with
      | none => rfl
      | some s => rfl

theorem inv_run {max : Nat} {es : List WriterEvent} {u : WriterRun}
    (h : machine.run (start max) es = some u) : Inv max u (es.findSome? (finishing max)) := by
  have hinv := Machine.run_invariant_foldl (M := machine) (I := Inv max)
    (g := fun fin e => fin.or (finishing max e)) (fun _ _ _ _ hu h => inv_step hu h) es _ u none
    (inv_start max) h
  rw [foldl_or, Option.none_or] at hinv
  exact hinv

/-- **The writer is terminal once and bounded.** The first finishing event alone determines the
trailers; later writes fail and change nothing, and neither do later calls of `Finish`; what is
emitted are the frames of the accepted messages in order, all of them at the end of the data; no
accepted message is over the limit; and the trailers are written once, at the end of the data. -/
theorem writer_terminal_once {max : Nat} {es : List WriterEvent} {u : WriterRun}
    (h : machine.run (start max) es = some u) :
    (∀ s, es.findSome? (finishing max) = some s →
      u.writer.trailHdrs = buildTrailers s [] [] ∧
        (∀ p, u.writer.write p = (u.writer, writeAfterFinish, [])) ∧
        ∀ s', u.writer.finish s' = (u.writer, [])) ∧
      (∃ rest, u.emitted ++ rest = (u.accepted.map frameOf).flatten) ∧
      (∀ p ∈ u.accepted, p.length ≤ max) ∧
      (u.eof = true → u.emitted = (u.accepted.map frameOf).flatten ∧
        ∃ s, es.findSome? (finishing max) = some s ∧
          u.otherCalls = [.writeTrailer (buildTrailers s [] [])]) ∧
      (u.eof = false → u.otherCalls = []) := by
  have hu := inv_run h
  refine ⟨?_, ⟨_, hu.sent⟩, hu.sized, ?_, hu.running⟩
  · intro s hs
    have hfin : u.writer.finished = true := by
      rw [hu.finished, hs]
      rfl
    refine ⟨?_, RawServerWriterImpl.write_late hfin, RawServerWriterImpl.finish_late hfin⟩
    rw [hu.trailers, hs]
    rfl
  · intro heof
    obtain ⟨hpending, hsome, hcalls⟩ := hu.ended heof
    obtain ⟨s, hs⟩ := Option.isSome_iff_exists.1 hsome
    have hunsent : u.writer.outbox.unsent = [] := (Outbox.unsent_eq_nil hu.wf).2 hpending
    have hsent := hu.sent
    rw [hunsent, List.append_nil] at hsent
    rw [hs] at hcalls
    exact ⟨hsent, s, hs, hcalls⟩

/-- A message, one over the limit of one byte, and a `Finish` that is too late. -/
def overLimit : List WriterEvent :=
  [.perform (.write [7]), .poll 3, .perform (.write [1, 2]), .perform (.finish Status.okStatus),
    .poll 9, .poll 1]

theorem writer_terminal_once_overLimit :
    ∃ u, machine.run (start 1) overLimit = some u ∧
      u.emitted = (u.accepted.map frameOf).flatten ∧
      ∃ s, overLimit.findSome? (finishing 1) = some s ∧
        u.otherCalls = [.writeTrailer (buildTrailers s [] [])] :=
  ⟨_, rfl, (writer_terminal_once rfl).2.2.2.1 rfl⟩

end WriterRun

end Rpcpio.Server
