import Rpcpio.Stream.DownloadRoundTrip
import Rpcpio.Stream.UnaryExchange
import Rpcpio.Server.AnyServerCall
import Rpcpio.Server.ResponseLifetime

/-!
# The response side of a streaming call

What a server-streaming and a bidirectional call have in common from the handler's writes on: the
writer and its generator, the direction of the connection that carries the response, the client's
closures and the caller's reads. The messages and the status are not known in advance, so a side is
a download (`ResponseSide.toDownload`) whose messages and status may be extended until the handler
has finished (`DownloadInvariant.extend`). Each event of a call that the side sees is one lemma
here.
-/

set_option autoImplicit false

namespace Rpcpio.Stream

open Rpcpio.Library Rpcpio.Protocol Rpcpio.Client Rpcpio.Server

/-! ## Directions of the connection -/

/-- One direction of the connection: the generator's state in the session, the bytes emitted and
those in flight. -/
structure Wire where
  deferred : Bool
  eof : Bool
  emitted : Bytes
  inFlight : Bytes
  deriving DecidableEq, Repr

namespace Wire

/-- Nothing was emitted yet. -/
def idle : Wire := ⟨false, false, [], []⟩

/-- The session polls a generator that is not deferred and has not ended, with a buffer. -/
def canPoll (w : Wire) (len : Nat) : Bool := 0 < len && !w.deferred && !w.eof

/-- What the session makes of a result of the generator. -/
def take (w : Wire) : GeneratorResult → Wire
  | .data bytes => { w with emitted := w.emitted ++ bytes, inFlight := w.inFlight ++ bytes }
  | .eof _ => { w with eof := true }
  | .deferred => { w with deferred := true }

/-- `resume`, if it was called. -/
def resume (w : Wire) (called : Bool) : Wire := { w with deferred := w.deferred && !called }

/-- `n` bytes have arrived. -/
def deliver (w : Wire) (n : Nat) : Wire := { w with inFlight := w.inFlight.drop n }

@[simp] theorem resume_false (w : Wire) : w.resume false = w := by simp [resume]

/-- A generator that is not polled waits for `resume`, or has ended. -/
theorem not_canPoll {w : Wire} (h : w.canPoll 1 = false) : w.deferred = true ∨ w.eof = true := by
  cases hd : w.deferred with
  | true => exact Or.inl rfl
  | false => exact Or.inr (by simpa [canPoll, hd] using h)

end Wire

/-! ## Traces of a response -/

/-- Whether `resume` was called on a response between two of its traces. -/
def responseResumed (before after : List ResponseEffect) : Bool :=
  (after.drop before.length).contains (.call .resume)

section Traces

variable (tr : List ResponseEffect) (calls : List ResponseCall)

theorem responseResumed_append :
    responseResumed tr (tr ++ calls.map .call) = calls.contains .resume := by
  rw [responseResumed, List.drop_left]
  simp

@[simp] theorem responseResumed_self : responseResumed tr tr = false := by
  simp [responseResumed]

theorem tracedTrailers_append :
    tracedTrailers (tr ++ calls.map .call) = tracedTrailers tr ++ writtenTrailers calls := by
  rw [tracedTrailers, List.filterMap_append, List.filterMap_map]
  congr 2
  funext c
  cases c <;> rfl

variable {calls} in
theorem writtenHeads_append (hnone : calls.countP isHead = 0) :
    writtenHeads (tr ++ calls.map .call) = writtenHeads tr := by
  rw [writtenHeads, List.filterMap_append, List.filterMap_map]
  refine (congrArg (_ ++ ·) (List.filterMap_eq_nil_iff.2 fun c hc => ?_)).trans
    (List.append_nil _)
  have hhead := List.countP_eq_zero.1 hnone c hc
  cases c with
  | writeHead code hdrs => exact absurd rfl hhead
  | _ => rfl

end Traces

/-! ## Messages and an end that come later -/

/-- A response whose handler has not finished may get more messages and any final status. -/
theorem Download.DownloadInvariant.extend {payloads : List Bytes} {s : Status}
    {maxResponseSize m : Nat} {d : Download}
    (h : d.DownloadInvariant payloads s maxResponseSize m) (hopen : d.writer.finished = false)
    (more : List Bytes) (t : Status) :
    Download.DownloadInvariant (payloads ++ more) t maxResponseSize m
      { d with todo := d.todo ++ more, status := t } := by
  obtain ⟨⟨sent, hw⟩, v, parsed, chunks, delivered, trailerQueued, hr⟩ := h
  have heof : d.eof = false := by
    cases hx : d.eof with
    | false => rfl
    | true => exact absurd (hopen.symm.trans (hw.eof hx).2) (by simp)
  obtain ⟨harr, rfl, hdone⟩ := hr.open heof
  refine ⟨⟨sent, { hw with
    split := ?_, status := rfl, finished := fun hf => ?_, trailHdrs := ?_, trailers := ?_ }⟩,
    v, parsed, chunks, delivered, false, { hr with
      client := hr.client, tasks := hr.tasks, ending := ?_, final := ?_ }⟩
  · rw [hw.split, List.append_assoc]
  · exact absurd (hopen.symm.trans hf) (by simp)
  · rw [hw.trailHdrs, hopen]
    rfl
  · rw [hw.trailers, heof]
    rfl
  · rw [hr.ending, hdone]
    rfl
  · rw [hr.final, hdone]
    rfl

/-- A response may get another head, as long as the client accepts it. -/
theorem Download.DownloadInvariant.setHead {payloads : List Bytes} {s : Status}
    {maxResponseSize m : Nat} {d : Download}
    (h : d.DownloadInvariant payloads s maxResponseSize m) {head : ResponseHead}
    (haccepted : headVerdict head = .accepted) :
    Download.DownloadInvariant payloads s maxResponseSize m { d with head := head } := by
  obtain ⟨⟨sent, hw⟩, v, parsed, chunks, delivered, trailerQueued, hr⟩ := h
  exact ⟨⟨sent, { hw with }⟩, v, parsed, chunks, delivered, trailerQueued, { hr with
    client := hr.client, head := haccepted }⟩

/-! ## The response side -/

/-- The response side of a call: the writer, the trace of the response, the messages the handler has
written and the status it has returned, the direction of the connection, the client, and the results
of the caller's reads. -/
structure ResponseSide where
  writer : RawServerWriterImpl
  trace : List ResponseEffect
  answers : List Bytes
  returned : Option Status
  down : Wire
  client : StreamingCall
  results : List PopResult

namespace ResponseSide

/-- The status the handler has returned; before that, OK stands in. -/
def status (x : ResponseSide) : Status := x.returned.getD Status.okStatus

/-- The side as a download; before the head is written, one without metadata stands in. -/
def toDownload (x : ResponseSide) : Download where
  todo := []
  status := x.status
  writer := x.writer
  head := (writtenHeads x.trace).headD ⟨200, streamHead Zlib.none ServerContext.new⟩
  deferred := x.down.deferred
  eof := x.down.eof
  emitted := x.down.emitted
  trailers := tracedTrailers x.trace
  wire := x.down.inFlight
  client := x.client
  results := x.results

/-- The side after calls on the response. -/
def after (x : ResponseSide) (w : RawServerWriterImpl) (calls : List ResponseCall) : ResponseSide :=
  { x with
    writer := w
    trace := x.trace ++ calls.map .call
    down := x.down.resume (calls.contains .resume) }

/-- The handler writes a message. -/
def answer (x : ResponseSide) (p : Bytes) : ResponseSide :=
  { x with answers := x.answers ++ [p] }.after (x.writer.perform (.write p)).1
    (x.writer.perform (.write p)).2

/-- The handler returns. -/
def finish (x : ResponseSide) (s : Status) : ResponseSide :=
  { x with returned := some s }.after (x.writer.finish s).1 (x.writer.finish s).2

/-- The session polls the generator. -/
def poll (x : ResponseSide) (len : Nat) : ResponseSide :=
  let y := x.after (x.writer.generate len).1 (x.writer.generate len).2.2
  { y with down := y.down.take (x.writer.generate len).2.1 }

/-- What holds of a response side between two events. -/
structure Sound (maxResponseSize k : Nat) (x : ResponseSide) : Prop where
  download : x.toDownload.DownloadInvariant x.answers x.status maxResponseSize k
  returned : x.returned.isSome = x.writer.finished

/-- The messages keep the limits of the response. -/
def Small (maxResponseSize k : Nat) (x : ResponseSide) : Prop :=
  ∀ p ∈ x.answers, p.length ≤ maxResponseSize ∧ p.length ≤ k ∧ p.length < 2 ^ 32

section Events

variable {maxResponseSize k : Nat} {x : ResponseSide}

theorem Small.lt (h : x.Small maxResponseSize k) :
    ∀ p ∈ x.answers, p.length ≤ maxResponseSize ∧ p.length < 2 ^ 32 :=
  fun p hp => ⟨(h p hp).1, (h p hp).2.2⟩

theorem Small.fits (h : x.Small maxResponseSize k) : Fits (clientFormat k) x.answers :=
  fun p hp => messageFrame_clientFormat (h p hp).2.1 (h p hp).2.2

/-- The download after calls on the response. -/
theorem toDownload_after (x : ResponseSide) (w : RawServerWriterImpl) {calls : List ResponseCall}
    (hnone : calls.countP isHead = 0) :
    (x.after w calls).toDownload =
      { x.toDownload with
        writer := w
        deferred := x.down.deferred && !calls.contains .resume
        trailers := tracedTrailers x.trace ++ writtenTrailers calls } := by
  simp only [toDownload, after, status, Wire.resume, tracedTrailers_append,
    writtenHeads_append _ hnone]

/-- A side without calls on the response. -/
theorem after_nil (x : ResponseSide) : x.after x.writer [] = x := by
  simp [after]

/-- A step of the download is one of the side. -/
theorem Sound.step (hx : x.Sound maxResponseSize k) (hs : x.Small maxResponseSize k)
    {e : DownloadEvent} {d : Download} (h : x.toDownload.step e = some d) :
    d.DownloadInvariant x.answers x.status maxResponseSize k :=
  Download.downloadInvariant_step hs.lt hs.fits hx.download h

theorem Sound.less (hx : x.Sound maxResponseSize k) (hs : x.Small maxResponseSize k)
    {e : DownloadEvent} {d : Download} (he : Download.isResponseEvent e = true)
    (h : x.toDownload.step e = some d) : d.remaining < x.toDownload.remaining :=
  Download.remaining_decreases hs.lt hx.download he h

/-- The head is written, and nothing else. -/
theorem Sound.writeHead {z : Zlib} (hx : x.Sound maxResponseSize k) (htrace : x.trace = [])
    (ctx : ServerContext) :
    Sound maxResponseSize k
        { x with trace := [.call (.writeHead 200 (streamHead z ctx)), .call .endWith] } ∧
      (toDownload { x with trace := [.call (.writeHead 200 (streamHead z ctx)), .call .endWith]
        }).remaining = x.toDownload.remaining := by
  have hdown : toDownload
      { x with trace := [.call (.writeHead 200 (streamHead z ctx)), .call .endWith] } =
        { x.toDownload with head := ⟨200, streamHead z ctx⟩ } := by
    simp [toDownload, htrace, writtenHeads, tracedTrailers, status]
  refine ⟨⟨?_, hx.returned⟩, by rw [hdown]; rfl⟩
  rw [hdown]
  exact hx.download.setHead (headVerdict_streamHead z ctx)

/-- **A message is written**: the download is the one before, with one more message to write. -/
theorem Sound.answer {p : Bytes} (hx : x.Sound maxResponseSize k)
    (hs : (x.answer p).Small maxResponseSize k) (hfin : x.writer.finished = false) :
    (x.answer p).Sound maxResponseSize k ∧ (x.writer.perform (.write p)).1.finished = false := by
  obtain ⟨⟨sent, hw⟩, _⟩ := id hx.download
  have hp := hs p (List.mem_append_right _ (List.mem_singleton_self p))
  have hlimit : x.writer.maxResponseSize = maxResponseSize := hw.limit
  have hwrite := RawServerWriterImpl.write_ok hfin (hlimit.symm ▸ hp.1) hp.2.2
  have hperform : x.writer.perform (.write p) =
      ({ x.writer with pending := x.writer.pending ++ [frameOf p] }, [.resume]) := by
    simp only [RawServerWriterImpl.perform, hwrite]
  have hfin' : (x.writer.perform (.write p)).1.finished = x.writer.finished := by rw [hperform]
  have hlt : ∀ q ∈ x.answers ++ [p], q.length ≤ maxResponseSize ∧ q.length < 2 ^ 32 := hs.lt
  have hdown := Download.downloadInvariant_step (e := .write) hlt hs.fits
    (hx.download.extend hfin [p] x.status) rfl
  refine ⟨⟨?_, hx.returned.trans hfin'.symm⟩, hfin'.trans hfin⟩
  rw [ResponseSide.answer, toDownload_after _ _ (RawServerWriterImpl.perform_heads _ _)]
  simpa [Download.afterWriter, toDownload, writtenTrailers, hwrite, hperform, status, after]
    using hdown

/-- **The handler returns**: the download is the one before, with its status, and finished. -/
theorem Sound.finish {s : Status} (hx : x.Sound maxResponseSize k)
    (hs : x.Small maxResponseSize k) (hfin : x.writer.finished = false) :
    (x.finish s).Sound maxResponseSize k ∧ (x.writer.finish s).1.finished = true := by
  have hfinish := RawServerWriterImpl.finish_open hfin s
  have hfin' : (x.writer.finish s).1.finished = true := by rw [hfinish]
  have hdown := Download.downloadInvariant_step (e := .finish) hs.lt hs.fits
    (by simpa using hx.download.extend hfin [] s) (if_pos (by simp [toDownload, hfin]))
  refine ⟨⟨?_, hfin'.symm⟩, hfin'⟩
  rw [ResponseSide.finish, toDownload_after _ _ (RawServerWriterImpl.finish_heads _ _)]
  simpa [Download.afterWriter, toDownload, writtenTrailers, hfinish, status, after] using hdown

/-- The generator is polled. -/
theorem step_poll {len : Nat} (hpoll : x.down.canPoll len = true) :
    x.toDownload.step (.poll len) = some (x.poll len).toDownload := by
  have hdef : x.down.deferred = false := by
    simp only [Wire.canPoll, Bool.and_eq_true, Bool.not_eq_true'] at hpoll
    exact hpoll.1.2
  refine (if_pos hpoll).trans (congrArg some ?_)
  have hafter := toDownload_after x (x.writer.generate len).1 (x.writer.generate_heads len)
  -- a generator that is polled is not deferred, so that no call can wake it
  have htake : (x.poll len).toDownload = ((x.after (x.writer.generate len).1
      (x.writer.generate len).2.2).toDownload).take (x.writer.generate len).2.1 := by
    rw [poll]
    cases (x.writer.generate len).2.1 <;> rfl
  rw [htake, hafter, hdef, Bool.false_and]
  simp only [toDownload, hdef]

theorem Sound.poll {len : Nat} (hx : x.Sound maxResponseSize k)
    (hs : x.Small maxResponseSize k) (hpoll : x.down.canPoll len = true) :
    (x.poll len).Sound maxResponseSize k ∧
      (x.poll len).toDownload.remaining < x.toDownload.remaining :=
  ⟨⟨hx.step hs (step_poll hpoll), hx.returned.trans (x.writer.generate_finished len).symm⟩,
    hx.less hs rfl (step_poll hpoll)⟩

/-! ### The client's end -/

/-- An event of the response at the client. -/
theorem Sound.client {e : DownloadEvent} {c : StreamingCall} {w : Wire}
    (hx : x.Sound maxResponseSize k) (hs : x.Small maxResponseSize k)
    (he : Download.isResponseEvent e = true)
    (h : x.toDownload.step e = some (toDownload { x with client := c, down := w })) :
    Sound maxResponseSize k { x with client := c, down := w } ∧
      (toDownload { x with client := c, down := w }).remaining < x.toDownload.remaining :=
  ⟨⟨hx.step hs h, hx.returned⟩, hx.less hs he h⟩

theorem step_head {head : ResponseHead} {c : StreamingCall}
    (hhead : (writtenHeads x.trace).head? = some head)
    (hc : x.client.step (.response head) = some c) :
    x.toDownload.step .head = some (toDownload { x with client := c }) := by
  have hfirst : x.toDownload.head = head := by simp [toDownload, hhead]
  subst hfirst
  exact congrArg (Option.map _) hc

theorem step_deliver {n : Nat} {c : StreamingCall}
    (hg : (decide (0 < n) && decide (n ≤ x.down.inFlight.length)) = true)
    (hc : x.client.step (.data (x.down.inFlight.take n)) = some c) :
    x.toDownload.step (.deliver n) =
      some (toDownload { x with down := x.down.deliver n, client := c }) :=
  (if_pos hg).trans (congrArg (Option.map _) hc)

theorem step_trailer {t : HeaderMap} {c : StreamingCall}
    (hg : (x.down.eof && x.down.inFlight.isEmpty) = true)
    (ht : (tracedTrailers x.trace).head? = some t) (hc : x.client.step (.trailers t) = some c) :
    x.toDownload.step .trailer = some (toDownload { x with client := c }) := by
  have ht' : x.toDownload.trailers.head? = some t := ht
  refine (if_pos hg).trans ?_
  rw [ht']
  exact congrArg (Option.map _) hc

theorem step_runStrand {c : StreamingCall} (hc : x.client.step .runStrand = some c) :
    x.toDownload.step .runStrand = some (toDownload { x with client := c }) :=
  congrArg (Option.map _) hc

theorem step_read {r : RawClientReaderImpl} {c : StreamingCall}
    (hr : x.client.call.reader = some r) (hc : x.client.step .read = some c) :
    x.toDownload.step .read =
      some (toDownload { x with client := c, results := x.results ++ r.read.2.toList }) := by
  have hr' : x.toDownload.client.call.reader = some r := hr
  rw [Download.step, hr']
  exact congrArg (Option.map _) hc

/-- The caller reads. -/
theorem Sound.read {r : RawClientReaderImpl} {c : StreamingCall} (hx : x.Sound maxResponseSize k)
    (hs : x.Small maxResponseSize k) (hr : x.client.call.reader = some r)
    (hc : x.client.step .read = some c) :
    Sound maxResponseSize k
      { x with client := c, results := x.results ++ r.read.2.toList } :=
  ⟨hx.step hs (step_read hr hc), hx.returned⟩

end Events

/-! ## What the caller may rely on -/

/-- Before the handler has finished the caller has read messages only, and no status. -/
theorem answers_open {payloads : List Bytes} {s : Status} {maxResponseSize m : Nat} {d : Download}
    (hfits : Fits (clientFormat m) payloads)
    (h : d.DownloadInvariant payloads s maxResponseSize m) (hopen : d.writer.finished = false) :
    d.eof = false ∧ d.results <+: payloads.map .message ∧
      ∃ r, d.client.call.reader = some r ∧ r.finish = none := by
  obtain ⟨⟨sent, hw⟩, v, parsed, chunks, delivered, trailerQueued, hr⟩ := h
  have heof : d.eof = false := by
    cases hx : d.eof with
    | false => rfl
    | true => exact absurd (hopen.symm.trans (hw.eof hx).2) (by simp)
  obtain ⟨_, _, hdone⟩ := hr.open heof
  have hstream := hw.stream
  rw [hr.received, List.append_assoc] at hstream
  obtain ⟨ms, hres, hms⟩ := hr.consumed.open (by rw [hr.ending, hdone]; rfl)
  refine ⟨heof, ?_, _, hr.client.reader, by rw [hr.final, hdone]; rfl⟩
  rw [hres]
  refine List.IsPrefix.map _ (List.IsPrefix.trans ?_ (hr.receives.delivered hfits hstream).1)
  rw [← hms]
  exact List.prefix_append _ _

/-- What the caller reads, in every state: a prefix of what the handler has written, and an end or a
status only once the handler has returned it. -/
structure Delivered (x : ResponseSide) : Prop where
  reads : x.results <+: x.answers.map .message ++
    (x.returned.elim [] fun s => List.replicate x.results.length (streamEnd s))
  finish : ∃ r, x.client.call.reader = some r ∧ ∀ t, r.finish = some t → x.returned = some t
  trailers : tracedTrailers x.trace =
    if x.down.eof then (x.returned.elim [] fun s => [buildTrailers s [] []]) else []

theorem Sound.delivered {maxResponseSize k : Nat} {x : ResponseSide}
    (hx : x.Sound maxResponseSize k) (hs : x.Small maxResponseSize k) : x.Delivered := by
  have hdown := hx.download.roundTrip hs.lt hs.fits
  cases hret : x.returned with
  | some s =>
      have hstatus : x.status = s := by rw [status, hret]; rfl
      rw [hstatus] at hdown
      obtain ⟨r, hr, hfin⟩ := hdown.finish
      exact ⟨by rw [hret]; exact hdown.results, ⟨r, hr, fun t ht => by rw [hret, hfin t ht]⟩,
        by rw [hret]; exact hdown.trailers⟩
  | none =>
      have hfin : x.toDownload.writer.finished = false := by
        have h := hx.returned
        rw [hret] at h
        exact h.symm
      obtain ⟨heof, hres, r, hr, hnone⟩ := answers_open hs.fits hx.download hfin
      have hres' : x.results <+: x.answers.map .message := hres
      have htrail := hdown.trailers
      rw [heof] at htrail
      refine ⟨by rw [hret]; simpa using hres', ⟨r, hr, fun t ht => by rw [hnone] at ht; cases ht⟩,
        htrail.trans (if_neg ?_).symm⟩
      exact fun h => absurd (heof.symm.trans h) (by simp)

end ResponseSide

/-! ## At rest -/

/-- All of `sent`, and the end if there is one, was read or is in the queue, and the reader is not
asleep on it. -/
structure Arrived (q : StreamMessageQueue) (sent : List Bytes) (ending : Option PopResult)
    (results : List PopResult) : Prop where
  consumed : Consumed q sent results
  ending : q.ending = ending
  awake : q.NoLostWakeup

/-- A read is answered while anything is left, and with the end again and again after it. -/
theorem Arrived.answered {q : StreamMessageQueue} {sent : List Bytes} {ending : Option PopResult}
    {results : List PopResult} (h : Arrived q sent ending results)
    (hleft : q.buffer ≠ [] ∨ ending.isSome = true) :
    q.canPop = true ∧ q.pop.2.isSome = true := by
  rcases hleft with hleft | hleft
  · have hready := h.awake (Or.inl hleft)
    refine ⟨by simpa [StreamMessageQueue.canPop] using hready, ?_⟩
    rcases q.pop_result with ⟨msg, rest, _, hpop, _⟩ | ⟨hb, _, _⟩
    · rw [hpop]
      rfl
    · exact absurd hb hleft
  · have hend : q.ending.isSome = true := by rw [h.ending]; exact hleft
    have hready := h.awake.of_ending hend
    exact ⟨by simpa [StreamMessageQueue.canPop] using hready, pop_isSome hend⟩

/-- A download at rest: what was written has arrived, and the end and the final status if the
handler has finished. -/
theorem Download.DownloadInvariant.arrived {payloads : List Bytes} {s : Status}
    {maxResponseSize m : Nat} {d : Download} (hfits : Fits (clientFormat m) payloads)
    (h : d.DownloadInvariant payloads s maxResponseSize m) (htodo : d.todo = [])
    (hstrand : d.client.strand = []) (hidle : d.deferred = true ∨ d.eof = true)
    (hwire : d.wire = []) (htrailers : d.eof = true → d.client.trailersArrived = true) :
    ∃ r, d.client.call.reader = some r ∧
      Arrived r.msgQueue payloads (if d.writer.finished then some (streamEnd s) else none)
        d.results ∧
      r.finish = if d.writer.finished then some s else none := by
  obtain ⟨⟨sent, hw⟩, v, parsed, chunks, delivered, trailerQueued, hr⟩ := h
  obtain ⟨rfl, rfl⟩ : chunks = [] ∧ trailerQueued = false := by
    have htasks := hr.client.strand
    rw [hstrand, hr.tasks] at htasks
    cases chunks with
    | cons c cs => cases htasks
    | nil =>
        cases trailerQueued with
        | true => cases htasks
        | false => exact ⟨rfl, rfl⟩
  have hpending : d.writer.pending = [] :=
    hidle.elim (fun hd => (hw.deferral hd).1) fun he => (hw.eof he).1
  have hunsent := (Outbox.unsent_eq_nil hw.wellFormed).2 hpending
  have hall : parsed ++ [] = streamOf payloads := by
    have hstream := hw.stream
    rw [hunsent, htodo, hr.received, hwire] at hstream
    simpa [streamOf] using hstream
  have hdelivered := (hr.receives.delivered hfits hall).2 rfl
  have hdone : v.trailersDone = d.writer.finished := by
    have harr := hr.client.trailersArrived.trans hr.arrived
    rw [Bool.false_or] at harr
    cases hf : d.writer.finished with
    | true =>
        have heof := hidle.resolve_left fun hdef =>
          absurd (hf.symm.trans (hw.deferral hdef).2) (by simp)
        exact harr.symm.trans (htrailers heof)
    | false =>
        cases hx : v.trailersDone with
        | false => rfl
        | true =>
            have heof := (hr.complete (by rw [hr.arrived, hx, Bool.or_true])).1
            exact absurd (hf.symm.trans (hw.eof heof).2) (by simp)
  refine ⟨v.reader, hr.client.reader, ⟨hdelivered ▸ hr.consumed, ?_, hr.awake⟩, ?_⟩
  · rw [hr.ending, hdone]
  · rw [hr.final, hdone]

namespace ResponseSide

/-- No event of the response is left: the strand is empty, the generator waits or has ended, and the
head, the bytes and the trailers have arrived. -/
structure Idle (x : ResponseSide) : Prop where
  strand : x.client.strand = []
  generator : x.down.canPoll 1 = false
  head : ∀ head, (writtenHeads x.trace).head? = some head →
    x.client.step (.response head) = none
  bytes : x.down.inFlight ≠ [] → x.client.step (.data (x.down.inFlight.take 1)) = none
  trailers : x.down.eof = true → x.down.inFlight = [] → ∀ t,
    (tracedTrailers x.trace).head? = some t → x.client.step (.trailers t) = none

/-- What has arrived at the caller. -/
def Settled (x : ResponseSide) : Prop :=
  ∃ r, x.client.call.reader = some r ∧
    Arrived r.msgQueue x.answers (x.returned.map streamEnd) x.results ∧ r.finish = x.returned

/-- **At rest everything has arrived**: the messages, and the status if the handler has returned. -/
theorem Sound.settled {maxResponseSize k : Nat} {x : ResponseSide}
    (hx : x.Sound maxResponseSize k) (hs : x.Small maxResponseSize k)
    (hone : (writtenHeads x.trace).length = 1) (hidle : x.Idle) : x.Settled := by
  obtain ⟨⟨sent, hw⟩, v, parsed, chunks, delivered, trailerQueued, hr⟩ := id hx.download
  have hclient : ReaderAt x.client v := hr.client
  have hhead : v.headersArrived = true := by
    cases hv : v.headersArrived with
    | true => rfl
    | false =>
        obtain ⟨head, hfirst⟩ := List.length_eq_one_iff.1 hone
        have haccepted : headVerdict head = .accepted := by
          have h := hr.head
          simpa [toDownload, hfirst] using h
        obtain ⟨c, hc, _⟩ := hclient.response haccepted hv
        have hnone := hidle.head head (by rw [hfirst]; rfl)
        rw [hc] at hnone
        cases hnone
  have hwire : x.down.inFlight = [] := by
    by_contra hne
    have htake : x.down.inFlight.take 1 ≠ [] := by
      have hpos := List.length_pos_iff.2 hne
      intro h0
      have hl := congrArg List.length h0
      rw [List.length_take, List.length_nil] at hl
      omega
    have hnone := hidle.bytes hne
    rw [hclient.data htake hhead] at hnone
    cases hnone
  have htrailers : x.down.eof = true → x.client.trailersArrived = true := by
    intro heof
    cases hv : v.trailersArrived with
    | true => exact hclient.trailersArrived.trans hv
    | false =>
        have htr : tracedTrailers x.trace = [buildTrailers x.status [] []] :=
          hw.trailers.trans (if_pos heof)
        have hnone := hidle.trailers heof hwire _ (by rw [htr]; rfl)
        rw [hclient.trailers _ hhead hv] at hnone
        cases hnone
  obtain ⟨r, hreader, harrived, hfin⟩ := hx.download.arrived hs.fits rfl hidle.strand
    (Wire.not_canPoll hidle.generator) hwire htrailers
  have hret : x.returned.isSome = x.toDownload.writer.finished := hx.returned
  rw [← hret] at harrived hfin
  cases hx' : x.returned with
  | none =>
      rw [hx'] at harrived hfin
      exact ⟨r, hreader, by rw [hx']; exact harrived, by rw [hx']; exact hfin⟩
  | some s =>
      have hstatus : x.status = s := by rw [status, hx']; rfl
      rw [hx', hstatus] at harrived hfin
      exact ⟨r, hreader, by rw [hx']; exact harrived, by rw [hx']; exact hfin⟩

end ResponseSide

end Rpcpio.Stream
