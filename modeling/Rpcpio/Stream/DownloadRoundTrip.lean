import Rpcpio.Stream.Download

/-!
# The round trip from server to client

`Writing` ties the payloads to the writer's frames, the bytes emitted and the trailers; `Receiving`
ties the bytes received to the closures on the strand, the parser, the queue and the reads. Both are
kept by every event (`downloadInvariant_step`), and the events of the response cannot go on for ever
(`remaining_decreases`), so what is written arrives, and the final status after it
(`download_round_trip`).
-/

set_option autoImplicit false

namespace Rpcpio.Stream

open Rpcpio.Library Rpcpio.Protocol Rpcpio.Client Rpcpio.Server

/-- What a read returns at the end of a stream with this final status. -/
def streamEnd (s : Status) : PopResult := if s.isOk then .eos else .error s

namespace Download

/-- The server's half: messages are written or still to write; what is written was emitted or waits
in the writer; the trailers are written with the end of the data. -/
structure Writing (payloads : List Bytes) (s : Status) (maxResponseSize : Nat) (d : Download)
    (sent : List Bytes) : Prop where
  split : payloads = sent ++ d.todo
  status : d.status = s
  limit : d.writer.maxResponseSize = maxResponseSize
  wellFormed : d.writer.outbox.WellFormed
  unsent : d.emitted ++ d.writer.outbox.unsent = streamOf sent
  finished : d.writer.finished = true → d.todo = []
  trailHdrs : d.writer.trailHdrs = if d.writer.finished then buildTrailers s [] [] else []
  deferral : d.deferred = true → d.writer.pending = [] ∧ d.writer.finished = false
  eof : d.eof = true → d.writer.pending = [] ∧ d.writer.finished = true
  trailers : d.trailers = if d.eof then [buildTrailers s [] []] else []

/-- The closures of the response stream: the queued chunks, and the trailers if they are queued. -/
def tasksOf (s : Status) (m : Nat) (chunks : List Bytes) (trailerQueued : Bool) : List StrandTask :=
  chunks.map (.data m) ++ if trailerQueued then [.trailers (buildTrailers s [] [])] else []

/-- The client's half: what was parsed was delivered, chunks are queued on the strand, the rest is
in flight; the end and the final status are those of the trailers. -/
structure Receiving (s : Status) (m : Nat) (d : Download) (v : ReaderView) (parsed : Bytes)
    (chunks delivered : List Bytes) (trailerQueued : Bool) : Prop where
  client : ReaderAt d.client v
  limit : maxReceiveMessageSize v.ctx = m
  head : headVerdict d.head = .accepted
  tasks : v.tasks = tasksOf s m chunks trailerQueued
  received : d.emitted = parsed ++ (chunks.flatten ++ d.wire)
  receives : Receives (clientFormat m) (LpmReader.Represents m) parsed delivered v.lpm
  consumed : Consumed v.reader.msgQueue delivered d.results
  ending : v.reader.msgQueue.ending = if v.trailersDone then some (streamEnd s) else none
  final : v.reader.finish = if v.trailersDone then some s else none
  awake : v.reader.msgQueue.NoLostWakeup
  arrived : v.trailersArrived = (trailerQueued || v.trailersDone)
  queuedOnce : trailerQueued = true → v.trailersDone = false
  complete : v.trailersArrived = true → d.eof = true ∧ d.wire = []
  done : v.trailersDone = true → chunks = []

/-- What holds of a download between two events. -/
def DownloadInvariant (payloads : List Bytes) (s : Status) (maxResponseSize m : Nat)
    (d : Download) : Prop :=
  (∃ sent, d.Writing payloads s maxResponseSize sent) ∧
    ∃ v parsed chunks delivered trailerQueued,
      d.Receiving s m v parsed chunks delivered trailerQueued

/-- The bytes emitted begin the stream. -/
theorem Writing.stream {payloads : List Bytes} {s : Status} {maxResponseSize : Nat} {d : Download}
    {sent : List Bytes} (h : d.Writing payloads s maxResponseSize sent) :
    d.emitted ++ (d.writer.outbox.unsent ++ streamOf d.todo) = streamOf payloads := by
  rw [← List.append_assoc, h.unsent, ← streamOf_append, ← h.split]

/-- A body that has ended was emitted completely. -/
theorem Writing.emitted_of_eof {payloads : List Bytes} {s : Status} {maxResponseSize : Nat}
    {d : Download} {sent : List Bytes} (h : d.Writing payloads s maxResponseSize sent)
    (heof : d.eof = true) : d.emitted = streamOf payloads := by
  obtain ⟨hpending, hfin⟩ := h.eof heof
  have hunsent := (Outbox.unsent_eq_nil h.wellFormed).2 hpending
  have hstream := h.stream
  rw [hunsent, h.finished hfin] at hstream
  simpa [streamOf] using hstream

/-! ## What an event does -/

section Events

variable {payloads : List Bytes} {s : Status} {maxResponseSize m : Nat} {d d' : Download}
  {sent : List Bytes} {v : ReaderView} {parsed : Bytes} {chunks delivered : List Bytes}
  {trailerQueued : Bool}

theorem step_write (hw : d.Writing payloads s maxResponseSize sent)
    (hsize : ∀ p ∈ payloads, p.length ≤ maxResponseSize ∧ p.length < 2 ^ 32)
    (h : d.step .write = some d') :
    ∃ p rest, d.todo = p :: rest ∧ d.writer.finished = false ∧
      d' = { d with
        todo := rest
        writer := { d.writer with pending := d.writer.pending ++ [frameOf p] }
        deferred := false } := by
  cases ht : d.todo with
  | nil => simp [step, ht] at h
  | cons p rest =>
      have hfin : d.writer.finished = false := by
        cases hf : d.writer.finished with
        | false => rfl
        | true =>
            rw [hw.finished hf] at ht
            cases ht
      have hp := hsize p (by rw [hw.split, ht]; simp)
      simp only [step, ht, Option.some.injEq,
        RawServerWriterImpl.write_ok hfin (hw.limit.symm ▸ hp.1) hp.2] at h
      refine ⟨p, rest, rfl, hfin, ?_⟩
      rw [← h]
      simp [afterWriter]

theorem step_finish (h : d.step .finish = some d') :
    d.todo = [] ∧ d.writer.finished = false ∧
      d' = { d with
        writer := { d.writer with
          finished := true
          trailHdrs := buildTrailers d.status [] d.writer.trailHdrs }
        deferred := false } := by
  simp only [step, Option.ite_none_right_eq_some, Option.some.injEq, Bool.and_eq_true,
    Bool.not_eq_true', List.isEmpty_iff] at h
  obtain ⟨⟨htodo, hfin⟩, rfl⟩ := h
  refine ⟨htodo, hfin, ?_⟩
  rw [RawServerWriterImpl.finish_open hfin]
  simp [afterWriter]

/-- A poll ends the body and writes the trailers, defers it, or moves bytes to the wire. -/
theorem step_poll {len : Nat} (hwf : d.writer.outbox.WellFormed)
    (h : d.step (.poll len) = some d') :
    0 < len ∧ d.deferred = false ∧ d.eof = false ∧
      ((d.writer.pending = [] ∧ d.writer.finished = true ∧
          d' = { d with eof := true, trailers := d.trailers ++ [d.writer.trailHdrs] }) ∨
        (d.writer.pending = [] ∧ d.writer.finished = false ∧ d' = { d with deferred := true }) ∨
        (d.writer.pending ≠ [] ∧ d' = { d with
          writer := { d.writer with
            pending := (d.writer.outbox.drain len).1.blocks
            offset := (d.writer.outbox.drain len).1.offset }
          emitted := d.emitted ++ (d.writer.outbox.drain len).2
          wire := d.wire ++ (d.writer.outbox.drain len).2 })) := by
  simp only [step, Option.ite_none_right_eq_some, Option.some.injEq, Bool.and_eq_true,
    Bool.not_eq_true', decide_eq_true_eq] at h
  obtain ⟨⟨⟨hlen, hdef⟩, heof⟩, rfl⟩ := h
  refine ⟨hlen, hdef, heof, ?_⟩
  by_cases hne : d.writer.pending = []
  · by_cases hfin : d.writer.finished = true
    · have hgen : d.writer.generate len =
          (d.writer, .eof true, [.writeTrailer d.writer.trailHdrs]) := by
        simp [RawServerWriterImpl.generate, hne, hfin]
      rw [hgen]
      exact .inl ⟨hne, hfin, rfl⟩
    · have hgen : d.writer.generate len = (d.writer, .deferred, []) := by
        simp [RawServerWriterImpl.generate, hne, hfin]
      rw [hgen]
      refine .inr (.inl ⟨hne, by simpa using hfin, ?_⟩)
      simp [take, writtenTrailers]
  · rw [RawServerWriterImpl.generate_drain len hwf hne]
    refine .inr (.inr ⟨hne, ?_⟩)
    simp [take, writtenTrailers]

theorem step_head (hr : d.Receiving s m v parsed chunks delivered trailerQueued)
    (h : d.step .head = some d') :
    v.headersArrived = false ∧ ∃ c, ReaderAt c { v with headersArrived := true } ∧
      c.strand = d.client.strand ∧ d' = { d with client := c } := by
  cases hnew : v.headersArrived with
  | true =>
      have harr : d.client.headersArrived = true := hr.client.headersArrived.trans hnew
      simp [step, StreamingCall.step, harr] at h
  | false =>
      obtain ⟨c, hstep, hat, hstrand⟩ := hr.client.response hr.head hnew
      simp only [step, hstep, Option.map_some, Option.some.injEq] at h
      exact ⟨rfl, c, hat, hstrand, h.symm⟩

theorem step_deliver {n : Nat} (hr : d.Receiving s m v parsed chunks delivered trailerQueued)
    (h : d.step (.deliver n) = some d') :
    0 < n ∧ n ≤ d.wire.length ∧ v.headersArrived = true ∧
      d' = { d with
        wire := d.wire.drop n
        client := d.client.post (.data m (d.wire.take n)) } := by
  cases hnew : v.headersArrived with
  | false =>
      have hlimit : d.client.dataLimit = none := by rw [hr.client.limit, hnew]; rfl
      simp [step, StreamingCall.step, hlimit] at h
  | true =>
      simp only [step, Option.ite_none_right_eq_some, Bool.and_eq_true, decide_eq_true_eq] at h
      obtain ⟨⟨hn, hle⟩, h⟩ := h
      have hne : d.wire.take n ≠ [] := by
        intro h0
        have hl : (d.wire.take n).length = 0 := by rw [h0]; rfl
        rw [List.length_take] at hl
        omega
      rw [hr.client.data hne hnew, hr.limit, Option.map_some, Option.some.injEq] at h
      exact ⟨hn, hle, rfl, h.symm⟩

theorem step_trailer (hw : d.Writing payloads s maxResponseSize sent)
    (hr : d.Receiving s m v parsed chunks delivered trailerQueued)
    (h : d.step .trailer = some d') :
    d.eof = true ∧ d.wire = [] ∧ v.headersArrived = true ∧ v.trailersArrived = false ∧
      d' = { d with
        client := StreamingCall.post { d.client with trailersArrived := true }
          (.trailers (buildTrailers s [] [])) } := by
  simp only [step, Option.ite_none_right_eq_some, Bool.and_eq_true, List.isEmpty_iff] at h
  obtain ⟨⟨heof, hwire⟩, h⟩ := h
  have htr : d.trailers.head? = some (buildTrailers s [] []) := by rw [hw.trailers, heof]; rfl
  rw [htr, Option.bind_some] at h
  cases hhead : v.headersArrived with
  | false =>
      have hlimit : d.client.dataLimit = none := by rw [hr.client.limit, hhead]; rfl
      simp [StreamingCall.step, hlimit] at h
  | true =>
      cases hnew : v.trailersArrived with
      | true =>
          have harr : d.client.trailersArrived = true := hr.client.trailersArrived.trans hnew
          simp [StreamingCall.step, harr] at h
      | false =>
          rw [hr.client.trailers _ hhead hnew, Option.map_some, Option.some.injEq] at h
          exact ⟨heof, hwire, rfl, rfl, h.symm⟩

theorem step_runStrand (h : d.step .runStrand = some d') :
    ∃ t rest, d.client.strand = t :: rest ∧
      d' = { d with client := StreamingCall.runTask { d.client with strand := rest } t } := by
  cases hs : d.client.strand with
  | nil => simp [step, StreamingCall.step, hs] at h
  | cons t rest =>
      simp only [step, StreamingCall.step, hs, Option.map_some, Option.some.injEq] at h
      exact ⟨t, rest, rfl, h.symm⟩

theorem step_read (hr : d.Receiving s m v parsed chunks delivered trailerQueued)
    (h : d.step .read = some d') :
    ∃ c, ReaderAt c { v with reader := v.reader.read.1 } ∧
      d' = { d with client := c, results := d.results ++ v.reader.read.2.toList } := by
  by_cases hpop : v.reader.msgQueue.canPop = true
  · obtain ⟨c, hstep, hat, hstrand⟩ := hr.client.read hpop
    simp only [step, hr.client.reader, hstep, Option.bind_some, Option.map_some,
      Option.some.injEq] at h
    exact ⟨c, hat, h.symm⟩
  · simp [step, hr.client.reader, StreamingCall.step, hpop] at h

theorem step_upload {e : CallEvent} (hr : d.Receiving s m v parsed chunks delivered trailerQueued)
    (h : d.step (.upload e) = some d') : ∃ c, ReaderAt c v ∧ d' = { d with client := c } := by
  simp only [step, Option.ite_none_right_eq_some, Option.map_eq_some_iff] at h
  obtain ⟨he, c, hstep, rfl⟩ := h
  exact ⟨c, hr.client.upload he hstep, rfl⟩

end Events

/-! ## The invariant -/

section Steps

variable {payloads : List Bytes} {s : Status} {maxResponseSize m : Nat} {d d' : Download}
  {sent : List Bytes} {v v' : ReaderView} {parsed : Bytes} {chunks delivered : List Bytes}
  {trailerQueued : Bool}

/-- A step that leaves the server's half as it is. -/
theorem Writing.congr (h : d.Writing payloads s maxResponseSize sent) (ht : d'.todo = d.todo)
    (hs : d'.status = d.status) (hw : d'.writer = d.writer) (he : d'.emitted = d.emitted)
    (hd : d'.deferred = d.deferred) (heof : d'.eof = d.eof) (htr : d'.trailers = d.trailers) :
    d'.Writing payloads s maxResponseSize sent :=
  ⟨ht ▸ h.split, hs ▸ h.status, hw ▸ h.limit, hw ▸ h.wellFormed, by rw [he, hw]; exact h.unsent,
    fun hf => ht ▸ h.finished (hw ▸ hf), hw ▸ h.trailHdrs, fun hx => hw ▸ h.deferral (hd ▸ hx),
    fun hx => hw ▸ h.eof (heof ▸ hx), by rw [htr, heof]; exact h.trailers⟩

/-- A step that leaves the client's half as it is. -/
theorem Receiving.congr (h : d.Receiving s m v parsed chunks delivered trailerQueued)
    (hc : ReaderAt d'.client v) (hh : d'.head = d.head) (he : d'.emitted = d.emitted)
    (hw : d'.wire = d.wire) (hr : d'.results = d.results) (heof : d.eof = true → d'.eof = true) :
    d'.Receiving s m v parsed chunks delivered trailerQueued :=
  { h with
    client := hc
    head := hh ▸ h.head
    received := by rw [he, hw]; exact h.received
    consumed := hr ▸ h.consumed
    complete := fun hx => ⟨heof (h.complete hx).1, hw ▸ (h.complete hx).2⟩ }

/-- The response is not over while the generator still runs. -/
theorem Receiving.open (h : d.Receiving s m v parsed chunks delivered trailerQueued)
    (heof : d.eof = false) :
    v.trailersArrived = false ∧ trailerQueued = false ∧ v.trailersDone = false := by
  have harr : v.trailersArrived = false := by
    cases hx : v.trailersArrived with
    | false => rfl
    | true => exact absurd (heof.symm.trans (h.complete hx).1) (by simp)
  have hor := h.arrived
  rw [harr] at hor
  exact ⟨harr, by simpa using hor.symm⟩

theorem invariant_write
    (hsize : ∀ p ∈ payloads, p.length ≤ maxResponseSize ∧ p.length < 2 ^ 32)
    (hd : DownloadInvariant payloads s maxResponseSize m d) (h : d.step .write = some d') :
    DownloadInvariant payloads s maxResponseSize m d' := by
  obtain ⟨⟨sent, hw⟩, v, parsed, chunks, delivered, trailerQueued, hr⟩ := hd
  obtain ⟨p, rest, ht, hfin, rfl⟩ := step_write hw hsize h
  refine ⟨⟨sent ++ [p], ?_, hw.status, hw.limit,
    Outbox.enqueue_wellFormed hw.wellFormed (frameOf_ne_nil p), ?_, ?_, hw.trailHdrs,
    fun hx => (by cases hx), fun hx => ?_, hw.trailers⟩, v, parsed, chunks, delivered,
    trailerQueued, hr.congr hr.client rfl rfl rfl rfl id⟩
  · rw [hw.split, ht]
    simp
  · have hun := Outbox.enqueue_unsent hw.wellFormed (frameOf p)
    rw [streamOf_append, ← hw.unsent, streamOf_singleton, List.append_assoc, ← hun]
    rfl
  · exact fun hx => absurd (hfin.symm.trans hx) (by simp)
  · exact absurd (hfin.symm.trans (hw.eof hx).2) (by simp)

theorem invariant_finish (hd : DownloadInvariant payloads s maxResponseSize m d)
    (h : d.step .finish = some d') : DownloadInvariant payloads s maxResponseSize m d' := by
  obtain ⟨⟨sent, hw⟩, v, parsed, chunks, delivered, trailerQueued, hr⟩ := hd
  obtain ⟨htodo, hfin, rfl⟩ := step_finish h
  have hfresh : d.writer.trailHdrs = [] := by rw [hw.trailHdrs, hfin]; rfl
  refine ⟨⟨sent, hw.split, hw.status, hw.limit, hw.wellFormed, hw.unsent, fun _ => htodo, ?_,
    fun hx => (by cases hx), fun hx => ?_, hw.trailers⟩, v, parsed, chunks, delivered,
    trailerQueued, hr.congr hr.client rfl rfl rfl rfl id⟩
  · show buildTrailers d.status [] d.writer.trailHdrs = buildTrailers s [] []
    rw [hw.status, hfresh]
  · exact absurd (hfin.symm.trans (hw.eof hx).2) (by simp)

theorem invariant_poll {len : Nat} (hd : DownloadInvariant payloads s maxResponseSize m d)
    (h : d.step (.poll len) = some d') : DownloadInvariant payloads s maxResponseSize m d' := by
  obtain ⟨⟨sent, hw⟩, v, parsed, chunks, delivered, trailerQueued, hr⟩ := hd
  obtain ⟨_, hdef, heof, hcase⟩ := step_poll hw.wellFormed h
  obtain ⟨harr, htq, hdone⟩ := hr.open heof
  rcases hcase with ⟨hne, hfin, rfl⟩ | ⟨hne, hfin, rfl⟩ | ⟨hne, rfl⟩
  · refine ⟨⟨sent, hw.split, hw.status, hw.limit, hw.wellFormed, hw.unsent, hw.finished,
      hw.trailHdrs, hw.deferral, fun _ => ⟨hne, hfin⟩, ?_⟩, v, parsed, chunks, delivered,
      trailerQueued, hr.congr hr.client rfl rfl rfl rfl fun _ => rfl⟩
    show d.trailers ++ [d.writer.trailHdrs] = [buildTrailers s [] []]
    rw [hw.trailers, heof, hw.trailHdrs, hfin]
    rfl
  · exact ⟨⟨sent, { hw with deferral := fun _ => ⟨hne, hfin⟩ }⟩, v, parsed, chunks, delivered,
      trailerQueued, hr.congr hr.client rfl rfl rfl rfl id⟩
  · refine ⟨⟨sent, hw.split, hw.status, hw.limit, Outbox.drain_wellFormed hw.wellFormed len, ?_,
      hw.finished, hw.trailHdrs, fun hx => ?_, fun hx => ?_, hw.trailers⟩, v, parsed, chunks,
      delivered, trailerQueued, { hr with client := hr.client, received := ?_, complete := ?_ }⟩
    · show d.emitted ++ (d.writer.outbox.drain len).2 ++ (d.writer.outbox.drain len).1.unsent = _
      rw [List.append_assoc, Outbox.drain_unsent hw.wellFormed, hw.unsent]
    · exact absurd (hdef.symm.trans hx) (by simp)
    · exact absurd (heof.symm.trans hx) (by simp)
    · show d.emitted ++ _ = parsed ++ (chunks.flatten ++ (d.wire ++ _))
      rw [hr.received]
      simp only [List.append_assoc]
    · exact fun hx => absurd (harr.symm.trans hx) (by simp)

theorem invariant_head (hd : DownloadInvariant payloads s maxResponseSize m d)
    (h : d.step .head = some d') : DownloadInvariant payloads s maxResponseSize m d' := by
  obtain ⟨⟨sent, hw⟩, v, parsed, chunks, delivered, trailerQueued, hr⟩ := hd
  obtain ⟨_, c, hat, _, rfl⟩ := step_head hr h
  exact ⟨⟨sent, hw.congr rfl rfl rfl rfl rfl rfl rfl⟩, _, parsed, chunks, delivered, trailerQueued,
    { hr with client := hat }⟩

theorem invariant_deliver {n : Nat} (hd : DownloadInvariant payloads s maxResponseSize m d)
    (h : d.step (.deliver n) = some d') : DownloadInvariant payloads s maxResponseSize m d' := by
  obtain ⟨⟨sent, hw⟩, v, parsed, chunks, delivered, trailerQueued, hr⟩ := hd
  obtain ⟨hn, hle, _, rfl⟩ := step_deliver hr h
  -- bytes are in flight, so the trailers have not arrived
  have harr : v.trailersArrived = false := by
    cases hx : v.trailersArrived with
    | false => rfl
    | true =>
        rw [(hr.complete hx).2] at hle
        exact absurd hle (by simp; omega)
  obtain ⟨rfl, hdone⟩ : trailerQueued = false ∧ v.trailersDone = false := by
    have hor := hr.arrived
    rw [harr] at hor
    simpa using hor.symm
  refine ⟨⟨sent, hw.congr rfl rfl rfl rfl rfl rfl rfl⟩, _, parsed, chunks ++ [d.wire.take n],
    delivered, false, { hr with
      client := hr.client.post (Or.inl rfl), tasks := ?_, received := ?_, complete := ?_,
      done := ?_ }⟩
  · show v.tasks ++ [StrandTask.data m (d.wire.take n)].filter isDownloadTask = _
    rw [hr.tasks]
    simp [tasksOf, isDownloadTask]
  · show d.emitted = parsed ++ ((chunks ++ [d.wire.take n]).flatten ++ d.wire.drop n)
    rw [hr.received]
    simp
  · exact fun hx => absurd (harr.symm.trans hx) (by simp)
  · exact fun hx => absurd (hdone.symm.trans hx) (by simp)

theorem invariant_trailer (hd : DownloadInvariant payloads s maxResponseSize m d)
    (h : d.step .trailer = some d') : DownloadInvariant payloads s maxResponseSize m d' := by
  obtain ⟨⟨sent, hw⟩, v, parsed, chunks, delivered, trailerQueued, hr⟩ := hd
  obtain ⟨heof, hwire, _, harr, rfl⟩ := step_trailer hw hr h
  obtain ⟨rfl, hdone⟩ : trailerQueued = false ∧ v.trailersDone = false := by
    have hor := hr.arrived
    rw [harr] at hor
    simpa using hor.symm
  have hat : ReaderAt { d.client with trailersArrived := true }
      { v with trailersArrived := true } := { hr.client with trailersArrived := rfl }
  refine ⟨⟨sent, hw.congr rfl rfl rfl rfl rfl rfl rfl⟩, _, parsed, chunks, delivered, true,
    { hr with
      client := hat.post (Or.inl rfl), tasks := ?_, arrived := rfl, queuedOnce := fun _ => hdone,
      complete := fun _ => ⟨heof, hwire⟩ }⟩
  show v.tasks ++ [StrandTask.trailers (buildTrailers s [] [])].filter isDownloadTask = _
  rw [hr.tasks]
  simp [tasksOf, isDownloadTask]

/-- The closure at the front of the strand is the caller's own, the first chunk, or the trailers. -/
theorem Receiving.front (h : d.Receiving s m v parsed chunks delivered trailerQueued)
    {t : StrandTask} {rest : List StrandTask} (hs : d.client.strand = t :: rest) :
    (isUploadTask t = true ∧ rest.filter isDownloadTask = v.tasks) ∨
      (∃ c cs, chunks = c :: cs ∧ t = .data m c ∧
        rest.filter isDownloadTask = tasksOf s m cs trailerQueued) ∨
      (chunks = [] ∧ trailerQueued = true ∧ t = .trailers (buildTrailers s [] []) ∧
        rest.filter isDownloadTask = tasksOf s m [] false) := by
  have hfilter : (t :: rest).filter isDownloadTask = v.tasks := hs ▸ h.client.strand
  by_cases hdown : isDownloadTask t = true
  · rw [List.filter_cons_of_pos hdown, h.tasks] at hfilter
    cases chunks with
    | cons c cs =>
        obtain ⟨ht, hrest⟩ := List.cons.inj hfilter
        exact .inr (.inl ⟨c, cs, rfl, ht, hrest⟩)
    | nil =>
        cases trailerQueued with
        | false => cases hfilter
        | true =>
            obtain ⟨ht, hrest⟩ := List.cons.inj hfilter
            exact .inr (.inr ⟨rfl, rfl, ht, hrest⟩)
  · rw [List.filter_cons_of_neg hdown] at hfilter
    exact .inl ⟨(h.client.tasks t (hs ▸ List.mem_cons_self)).resolve_left hdown, hfilter⟩

theorem invariant_runStrand (hfits : Fits (clientFormat m) payloads)
    (hd : DownloadInvariant payloads s maxResponseSize m d) (h : d.step .runStrand = some d') :
    DownloadInvariant payloads s maxResponseSize m d' := by
  obtain ⟨⟨sent, hw⟩, v, parsed, chunks, delivered, trailerQueued, hr⟩ := hd
  obtain ⟨t, rest, hs, rfl⟩ := step_runStrand h
  have hw' : ∀ c, Writing payloads s maxResponseSize { d with client := c } sent :=
    fun c => hw.congr rfl rfl rfl rfl rfl rfl rfl
  have htail := hr.client.tail hs
  rcases hr.front hs with ⟨ht, hrest⟩ | ⟨c, cs, rfl, rfl, hrest⟩ | ⟨rfl, rfl, rfl, hrest⟩
  · -- a closure of the caller's own stream
    refine ⟨⟨sent, hw' _⟩, v, parsed, chunks, delivered, trailerQueued,
      hr.congr ?_ rfl rfl rfl rfl id⟩
    rw [hrest] at htail
    exact htail.runUpload ht
  · -- the closure of a chunk: it is parsed and its messages are pushed
    have hdone : v.trailersDone = false := by
      cases hx : v.trailersDone with
      | false => rfl
      | true => cases hr.done hx
    have hopen : v.reader.msgQueue.ending = none := by rw [hr.ending, hdone]; rfl
    have hstream : parsed ++ c ++ (cs.flatten ++ d.wire ++
        (d.writer.outbox.unsent ++ streamOf d.todo)) = streamOf payloads := by
      rw [← hw.stream, hr.received]
      simp
    obtain ⟨hok, hrec⟩ := hr.receives.feed (r := v.lpm.feed m c) hfits
      (fun got hgot => LpmReader.feed_agrees hgot _) hstream
    obtain ⟨hcons, hend⟩ := hr.consumed.pushAll hopen (v.lpm.feed m c).messages
    refine ⟨⟨sent, hw' _⟩, _, parsed ++ c, cs, delivered ++ (v.lpm.feed m c).messages,
      trailerQueued, { hr with
        client := htail.runData hok, tasks := hrest, received := ?_, receives := hrec,
        consumed := hcons, ending := ?_, awake := pushAll_noLostWakeup hr.awake _, done := ?_ }⟩
    · show d.emitted = parsed ++ c ++ (cs.flatten ++ d.wire)
      rw [hr.received]
      simp
    · show StreamMessageQueue.ending _ = if v.trailersDone then _ else none
      rw [hend, hdone]
      rfl
    · exact fun hx => absurd (hdone.symm.trans hx) (by simp)
  · -- the closure of the trailers: the queue ends and the final status is set
    have hdone := hr.queuedOnce rfl
    have hopen : v.reader.msgQueue.ending = none := by rw [hr.ending, hdone]; rfl
    have harr : v.trailersArrived = true := hr.arrived
    have hrun := htail.runTrailers (buildTrailers s [] [])
    rw [extractTrailerStatus_finish] at hrun
    refine ⟨⟨sent, hw' _⟩, _, parsed, [], delivered, false, { hr with
      client := hrun, tasks := hrest, consumed := ?_, ending := ?_, final := rfl, awake := ?_,
      arrived := harr, queuedOnce := fun hx => (by cases hx), done := fun _ => rfl }⟩
    · apply hr.consumed.congr hopen
      show StreamMessageQueue.buffer (if s.isOk then _ else _) = _
      split <;> simp
    · show StreamMessageQueue.ending (if s.isOk then _ else _) = some (streamEnd s)
      simp only [streamEnd]
      split
      · exact StreamMessageQueue.setEos_ending (StreamMessageQueue.ending_eq_none hopen).1
      · exact StreamMessageQueue.setError_ending _ _
    · show StreamMessageQueue.NoLostWakeup (if s.isOk then _ else _)
      split
      · exact StreamMessageQueue.setEos_noLostWakeup _
      · exact StreamMessageQueue.setError_noLostWakeup _ _

theorem invariant_read (hd : DownloadInvariant payloads s maxResponseSize m d)
    (h : d.step .read = some d') : DownloadInvariant payloads s maxResponseSize m d' := by
  obtain ⟨⟨sent, hw⟩, v, parsed, chunks, delivered, trailerQueued, hr⟩ := hd
  obtain ⟨c, hat, rfl⟩ := step_read hr h
  refine ⟨⟨sent, hw.congr rfl rfl rfl rfl rfl rfl rfl⟩, _, parsed, chunks, delivered,
    trailerQueued, { hr with
      client := hat, consumed := hr.consumed.pop, ending := ?_
      awake := StreamMessageQueue.pop_noLostWakeup _ }⟩
  show v.reader.msgQueue.pop.1.ending = _
  rw [StreamMessageQueue.pop_ending, hr.ending]

/-- **Every event keeps the two halves.** -/
theorem downloadInvariant_step
    (hsize : ∀ p ∈ payloads, p.length ≤ maxResponseSize ∧ p.length < 2 ^ 32)
    (hfits : Fits (clientFormat m) payloads) {e : DownloadEvent}
    (hd : DownloadInvariant payloads s maxResponseSize m d) (h : d.step e = some d') :
    DownloadInvariant payloads s maxResponseSize m d' := by
  cases e with
  | write => exact invariant_write hsize hd h
  | finish => exact invariant_finish hd h
  | poll len => exact invariant_poll hd h
  | head => exact invariant_head hd h
  | deliver n => exact invariant_deliver hd h
  | trailer => exact invariant_trailer hd h
  | runStrand => exact invariant_runStrand hfits hd h
  | read => exact invariant_read hd h
  | upload e =>
      obtain ⟨⟨sent, hw⟩, v, parsed, chunks, delivered, trailerQueued, hr⟩ := hd
      obtain ⟨c, hat, rfl⟩ := step_upload hr h
      exact ⟨⟨sent, hw.congr rfl rfl rfl rfl rfl rfl rfl⟩, v, parsed, chunks, delivered,
        trailerQueued, hr.congr hat rfl rfl rfl rfl id⟩

end Steps

/-! ## Progress -/

/-- The events of the response: all but the reads and the caller's own stream. -/
def isResponseEvent : DownloadEvent → Bool
  | .read | .upload _ => false
  | _ => true

/-- An upper bound on the events of the response that are still to come. -/
def remaining (d : Download) : Nat :=
  (d.todo.map fun p => 3 * (frameOf p).length + 2).sum + 3 * d.writer.outbox.unsent.length +
    2 * d.wire.length + d.client.strand.length + 2 * (!d.writer.finished).toNat +
    (!d.deferred).toNat + (!d.eof).toNat + (!d.client.headersArrived).toNat +
    2 * (!d.client.trailersArrived).toNat

/-- **Every event of the response brings it closer to its end.** -/
theorem remaining_decreases {payloads : List Bytes} {s : Status} {maxResponseSize m : Nat}
    {d d' : Download} (hsize : ∀ p ∈ payloads, p.length ≤ maxResponseSize ∧ p.length < 2 ^ 32)
    {e : DownloadEvent} (hd : DownloadInvariant payloads s maxResponseSize m d)
    (he : isResponseEvent e = true) (h : d.step e = some d') : d'.remaining < d.remaining := by
  obtain ⟨⟨sent, hw⟩, v, parsed, chunks, delivered, trailerQueued, hr⟩ := hd
  have hdef : (!d.deferred).toNat ≤ 1 := Bool.toNat_le _
  cases e with
  | read => cases he
  | upload e => cases he
  | write =>
      obtain ⟨p, rest, ht, hfin, rfl⟩ := step_write hw hsize h
      -- a written message weighs more on the list than its frame does in the outbox
      have hun : (Outbox.unsent ⟨d.writer.pending ++ [frameOf p], d.writer.offset⟩).length =
          d.writer.outbox.unsent.length + (frameOf p).length := by
        rw [← List.length_append, ← Outbox.enqueue_unsent hw.wellFormed]
        rfl
      simp only [remaining, RawServerWriterImpl.outbox, ht, List.map_cons, List.sum_cons, hun,
        Bool.not_false, Bool.toNat_true]
      omega
  | finish =>
      obtain ⟨htodo, hfin, rfl⟩ := step_finish h
      simp only [remaining, RawServerWriterImpl.outbox, hfin, Bool.not_false, Bool.not_true,
        Bool.toNat_true, Bool.toNat_false]
      omega
  | poll len =>
      obtain ⟨hpos, hdefer, heof, hcase⟩ := step_poll hw.wellFormed h
      -- the generator ends the stream, defers, or takes bytes from the outbox
      rcases hcase with ⟨hne, hfin, rfl⟩ | ⟨hne, hfin, rfl⟩ | ⟨hne, rfl⟩
      · simp only [remaining, heof, Bool.not_true, Bool.not_false, Bool.toNat_true,
          Bool.toNat_false]
        omega
      · simp only [remaining, hdefer, Bool.not_true, Bool.not_false, Bool.toNat_true,
          Bool.toNat_false]
        omega
      · have hun := congrArg List.length (Outbox.drain_unsent hw.wellFormed len)
        rw [List.length_append] at hun
        have hsome := List.length_pos_iff.2 (Outbox.drain_progress hw.wellFormed hpos hne)
        simp only [remaining, List.length_append]
        show _ + 3 * (d.writer.outbox.drain len).1.unsent.length + _ + _ + _ + _ + _ + _ + _ < _
        omega
  | head =>
      obtain ⟨hnew, c, hat, hstrand, rfl⟩ := step_head hr h
      have htr : c.trailersArrived = d.client.trailersArrived :=
        hat.trailersArrived.trans hr.client.trailersArrived.symm
      have hold : d.client.headersArrived = false := hr.client.headersArrived.trans hnew
      have harr : c.headersArrived = true := hat.headersArrived
      simp only [remaining, hstrand, htr, hold, harr, Bool.not_true, Bool.not_false,
        Bool.toNat_true, Bool.toNat_false]
      omega
  | deliver n =>
      obtain ⟨hn, hle, _, rfl⟩ := step_deliver hr h
      simp only [remaining, StreamingCall.post, List.length_drop, List.length_append,
        List.length_singleton]
      omega
  | trailer =>
      obtain ⟨_, _, _, harr, rfl⟩ := step_trailer hw hr h
      have hold : d.client.trailersArrived = false := hr.client.trailersArrived.trans harr
      simp only [remaining, StreamingCall.post, hold, List.length_append, List.length_singleton,
        Bool.not_true, Bool.not_false, Bool.toNat_true, Bool.toNat_false]
      omega
  | runStrand =>
      obtain ⟨t, rest, hs, rfl⟩ := step_runStrand h
      have hflags := StreamingCall.arrived_runTask { d.client with strand := rest } t
      simp only [remaining, strand_runTask, hflags.1, hflags.2, hs, List.length_cons]
      omega

/-- No event of the response is left. -/
def Quiescent (d : Download) : Prop := ∀ e, isResponseEvent e = true → d.step e = none

/-- A download on which no event of the response is left is complete: its final status is known, and
a read of it is answered. -/
theorem quiescent_complete {payloads : List Bytes} {s : Status} {maxResponseSize m : Nat}
    {d : Download} (hd : DownloadInvariant payloads s maxResponseSize m d) (hq : d.Quiescent) :
    d.eof = true ∧ (∃ r, d.client.call.reader = some r ∧ r.finish = some s) ∧
      ∃ d', d.step .read = some d' ∧ d'.results.length = d.results.length + 1 := by
  obtain ⟨⟨sent, hw⟩, v, parsed, chunks, delivered, trailerQueued, hr⟩ := hd
  -- the server has written everything, finished and reached the end of its data
  have htodo : d.todo = [] := by
    cases ht : d.todo with
    | nil => rfl
    | cons p rest =>
        have hnone := hq .write rfl
        simp [step, ht] at hnone
  have hfin : d.writer.finished = true := by
    have hnone := hq .finish rfl
    simpa [step, htodo] using hnone
  have hdef : d.deferred = false := by
    cases hx : d.deferred with
    | false => rfl
    | true => exact absurd (hfin.symm.trans (hw.deferral hx).2) (by simp)
  have heof : d.eof = true := by
    have hnone := hq (.poll 1) rfl
    simpa [step, hdef] using hnone
  -- the client has received the headers, the data and the trailers
  have hhead : v.headersArrived = true := by
    cases hx : v.headersArrived with
    | true => rfl
    | false =>
        obtain ⟨c, hstep, _⟩ := hr.client.response hr.head hx
        have hnone := hq .head rfl
        simp [step, hstep] at hnone
  have hwire : d.wire = [] := by
    by_cases hne : d.wire = []
    · exact hne
    · have hpos := List.length_pos_iff.2 hne
      have htake : d.wire.take 1 ≠ [] := by
        intro h0
        have hl : (d.wire.take 1).length = 0 := by rw [h0]; rfl
        rw [List.length_take] at hl
        omega
      have hnone := hq (.deliver 1) rfl
      simp [step, Nat.succ_le_iff.2 hpos, hr.client.data htake hhead] at hnone
  have harr : v.trailersArrived = true := by
    cases hx : v.trailersArrived with
    | true => rfl
    | false =>
        have htr : d.trailers.head? = some (buildTrailers s [] []) := by
          rw [hw.trailers, heof]
          rfl
        have hnone := hq .trailer rfl
        simp [step, heof, hwire, htr, hr.client.trailers _ hhead hx] at hnone
  -- and its strand has run their closures
  have hdone : v.trailersDone = true := by
    cases hs : d.client.strand with
    | cons t rest =>
        have hnone := hq .runStrand rfl
        simp [step, StreamingCall.step, hs] at hnone
    | nil =>
        have htasks := hr.client.strand
        rw [hs, hr.tasks] at htasks
        have htq : trailerQueued = false := by
          cases trailerQueued with
          | false => rfl
          | true => simp [tasksOf] at htasks
        have hor := hr.arrived
        rw [harr, htq] at hor
        simpa using hor.symm
  have hend : v.reader.msgQueue.ending.isSome = true := by rw [hr.ending, hdone]; rfl
  have hpop : v.reader.msgQueue.canPop = true := by
    simpa [StreamMessageQueue.canPop] using hr.awake.of_ending hend
  obtain ⟨res, hres⟩ := Option.isSome_iff_exists.1 (pop_isSome hend)
  obtain ⟨c, hstep, _⟩ := hr.client.read hpop
  refine ⟨heof, ⟨_, hr.client.reader, by rw [hr.final, hdone]; rfl⟩,
    { d with client := c, results := d.results ++ v.reader.read.2.toList }, ?_, ?_⟩
  · simp [step, hr.client.reader, hstep]
  · simp [RawClientReaderImpl.read, hres]

/-! ## The round trip -/

/-- What the ends of a download of `payloads` with final status `s` may rely on: the body is the
stream of the payloads and the trailers are written once, with its end; it is not left deferred on a
frame or the end; the reads return the payloads in order and then the end, `Finish` the final
status; and the response comes to a rest at which everything has arrived. -/
structure RoundTrip (payloads : List Bytes) (s : Status) (d : Download) : Prop where
  emitted : d.emitted <+: streamOf payloads
  complete : d.eof = true → d.emitted = streamOf payloads
  trailers : d.trailers = if d.eof then [buildTrailers s [] []] else []
  deferral : d.deferred = true → d.writer.pending = [] ∧ d.writer.finished = false
  results : d.results <+:
    payloads.map .message ++ List.replicate d.results.length (streamEnd s)
  finish : ∃ r, d.client.call.reader = some r ∧ ∀ t, r.finish = some t → t = s
  bounded : ∃ n, ∀ es d', (∀ e ∈ es, isResponseEvent e = true) → machine.run d es = some d' →
    es.length ≤ n
  rests : ∃ es d', (∀ e ∈ es, isResponseEvent e = true) ∧ machine.run d es = some d' ∧ d'.Quiescent
  answered : d.Quiescent → d.eof = true ∧
    (∃ r, d.client.call.reader = some r ∧ r.finish = some s) ∧
    ∃ d', d.step .read = some d' ∧ d'.results.length = d.results.length + 1

theorem DownloadInvariant.roundTrip {payloads : List Bytes} {s : Status} {maxResponseSize m : Nat}
    {d : Download} (hsize : ∀ p ∈ payloads, p.length ≤ maxResponseSize ∧ p.length < 2 ^ 32)
    (hfits : Fits (clientFormat m) payloads)
    (hd : DownloadInvariant payloads s maxResponseSize m d) : RoundTrip payloads s d := by
  obtain ⟨⟨sent, hw⟩, v, parsed, chunks, delivered, trailerQueued, hr⟩ := id hd
  have hstream := hw.stream
  rw [hr.received, List.append_assoc] at hstream
  obtain ⟨hpre, _⟩ := hr.receives.delivered hfits hstream
  have hstep : ∀ a e b, DownloadInvariant payloads s maxResponseSize m a →
      machine.step a e = some b → DownloadInvariant payloads s maxResponseSize m b :=
    fun a e b ha hb => downloadInvariant_step hsize hfits ha hb
  have hdec : ∀ a e b, DownloadInvariant payloads s maxResponseSize m a →
      isResponseEvent e = true → machine.step a e = some b → b.remaining < a.remaining :=
    fun a e b ha he hb => remaining_decreases hsize ha he hb
  refine ⟨⟨_, hw.stream⟩, hw.emitted_of_eof, hw.trailers, hw.deferral, ?_,
    ⟨_, hr.client.reader, fun t ht => ?_⟩,
    ⟨d.remaining, fun es d' hes hrun => Machine.run_length_le hstep hdec es d d' hd hes hrun⟩,
    Machine.exists_quiescent hstep hdec d hd, quiescent_complete hd⟩
  · apply hr.consumed.results hpre
    intro e' he'
    rw [hr.ending] at he'
    cases hdone : v.trailersDone with
    | false => simp [hdone] at he'
    | true =>
        obtain ⟨heof, hwire⟩ := hr.complete (by rw [hr.arrived, hdone, Bool.or_true])
        refine ⟨by simpa [hdone] using he'.symm, ?_⟩
        have hrecv : parsed ++ [] = streamOf payloads := by
          rw [← hw.emitted_of_eof heof, hr.received, hr.done hdone, hwire]
          simp
        exact (hr.receives.delivered hfits hrecv).2 rfl
  · rw [hr.final] at ht
    cases hdone : v.trailersDone with
    | false => simp [hdone] at ht
    | true => simpa [hdone] using ht.symm

theorem downloadInvariant_start (z : Zlib) {kind : CallKind} (hkind : kind ≠ .clientStreaming)
    (ctx : Option ClientContext) (id : StreamId) (serverCtx : ServerContext)
    (maxResponseSize : Nat) (payloads : List Bytes) (s : Status) :
    DownloadInvariant payloads s maxResponseSize (maxReceiveMessageSize ctx)
      (start z kind ctx id serverCtx maxResponseSize payloads s) := by
  have hclient : ReaderAt
      (start z kind ctx id serverCtx maxResponseSize payloads s).client
      ⟨ctx, RawClientReaderImpl.new, LpmReader.new, [], false, false, false⟩ := by
    have hnil : ∀ t ∈ ([] : List StrandTask), isDownloadTask t = true ∨ isUploadTask t = true :=
      by simp
    cases kind with
    | clientStreaming => exact absurd rfl hkind
    | serverStreaming => exact ⟨rfl, rfl, rfl, rfl, rfl, rfl, rfl, rfl, hnil, rfl, rfl, rfl, rfl⟩
    | bidi => exact ⟨rfl, rfl, rfl, rfl, rfl, rfl, rfl, rfl, hnil, rfl, rfl, rfl, rfl⟩
  exact ⟨⟨[], rfl, rfl, rfl, Outbox.empty_wellFormed, rfl, fun h => (by cases h), rfl,
    fun h => (by cases h), fun h => (by cases h), rfl⟩, _, [], [], [], false, hclient, rfl,
    headVerdict_streamHead z serverCtx, rfl, rfl,
    receives_new (LpmReader.new_represents _), consumed_new, rfl, rfl,
    StreamMessageQueue.new_noLostWakeup, rfl, fun h => (by cases h), fun h => (by cases h),
    fun h => (by cases h)⟩

/-- **What a handler writes, the caller reads, and then the handler's status.** In every state a
download of a server-streaming or bidirectional call can reach, whatever the order of writes, polls,
deliveries, closures and reads. -/
theorem download_round_trip (z : Zlib) {kind : CallKind} (hkind : kind ≠ .clientStreaming)
    (ctx : Option ClientContext) (id : StreamId) (serverCtx : ServerContext)
    (maxResponseSize : Nat) (payloads : List Bytes) (s : Status)
    (hsize : ∀ p ∈ payloads, p.length ≤ maxResponseSize ∧
      p.length ≤ maxReceiveMessageSize ctx ∧ p.length < 2 ^ 32) {d : Download}
    (hd : machine.Reaches (start z kind ctx id serverCtx maxResponseSize payloads s) d) :
    RoundTrip payloads s d := by
  have hlen : ∀ p ∈ payloads, p.length ≤ maxResponseSize ∧ p.length < 2 ^ 32 :=
    fun p hp => ⟨(hsize p hp).1, (hsize p hp).2.2⟩
  have hfits : Fits (clientFormat (maxReceiveMessageSize ctx)) payloads :=
    fun p hp => messageFrame_clientFormat (hsize p hp).2.1 (hsize p hp).2.2
  have hinv : DownloadInvariant payloads s maxResponseSize (maxReceiveMessageSize ctx) d :=
    hd.invariant (I := DownloadInvariant payloads s maxResponseSize (maxReceiveMessageSize ctx))
      (fun _ _ _ ha hb => downloadInvariant_step hlen hfits ha hb)
      (downloadInvariant_start z hkind ctx id serverCtx maxResponseSize payloads s)
  exact hinv.roundTrip hlen hfits

/-- A message and a failure, polled and delivered in pieces, and read before and after they arrive,
while the caller writes a message of its own. -/
def exampleDownload : List DownloadEvent :=
  [.poll 8, .write, .poll 4, .head, .read, .deliver 3, .upload (.write [9]), .runStrand, .finish,
    .poll 9, .deliver 3, .poll 1, .trailer, .runStrand, .runStrand, .read, .runStrand, .read, .read]

theorem download_round_trip_example :
    ∃ d, machine.run (start Zlib.none .bidi none 1 ServerContext.new 100 [[7]]
        (Status.of .aborted (text "later"))) exampleDownload = some d ∧
      d.results = [.message [7], .error (Status.of .aborted (text "later")),
        .error (Status.of .aborted (text "later"))] ∧
      RoundTrip [[7]] (Status.of .aborted (text "later")) d := by
  have hrun : (machine.run (start Zlib.none .bidi none 1 ServerContext.new 100 [[7]]
      (Status.of .aborted (text "later"))) exampleDownload).map (·.results) =
        some [.message [7], .error (Status.of .aborted (text "later")),
          .error (Status.of .aborted (text "later"))] := by decide
  obtain ⟨d, hd, hres⟩ := Option.map_eq_some_iff.1 hrun
  exact ⟨d, hd, hres, download_round_trip Zlib.none (by decide) none 1 ServerContext.new 100 [[7]]
    _ (by decide) ⟨exampleDownload, hd⟩⟩

end Download

end Rpcpio.Stream
