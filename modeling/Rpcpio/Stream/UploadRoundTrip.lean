import Rpcpio.Stream.Upload

/-!
# The round trip from client to server

`Sending` ties the messages to the closures on the strand, the writer's frames and the bytes
emitted; `Receiving` ties the bytes received to the parser, the queue and the reads. Both are kept
by every event (`uploadInvariant_step`), and the events other than reads cannot go on for ever
(`remaining_decreases`), so what is written arrives (`upload_round_trip`).
-/

set_option autoImplicit false

namespace Rpcpio.Stream

open Rpcpio.Library Rpcpio.Protocol Rpcpio.Client Rpcpio.Server

namespace Upload

/-- The closures on the strand: the queued messages, and the end if it is queued. -/
def strandOf (queued : List Bytes) (doneQueued : Bool) : List StrandTask :=
  queued.map (fun p => .enqueue (frameOf p)) ++ if doneQueued then [.writesDone] else []

/-- The client's half: messages are sent, queued on the strand or still to write; what is sent was
emitted or waits in the writer. -/
structure Sending (payloads : List Bytes) (u : Upload) (w : RawClientWriterImpl)
    (sent queued : List Bytes) (doneQueued : Bool) : Prop where
  client : ClientAt u.client w (strandOf queued doneQueued)
  split : payloads = sent ++ queued ++ u.todo
  wellFormed : w.outbox.WellFormed
  unsent : u.emitted ++ w.outbox.unsent = streamOf sent
  issued : u.doneIssued = (doneQueued || w.writesDone)
  pendingDone : doneQueued = true → w.writesDone = false
  complete : u.doneIssued = true → u.todo = []
  drained : w.writesDone = true → queued = []
  deferral : u.deferred = true → w.pending = [] ∧ w.writesDone = false
  eof : u.eof = true → w.pending = [] ∧ w.writesDone = true

/-- The server's half: what was received is parsed and pushed, and the rest is in flight. -/
structure Receiving (m : Nat) (u : Upload) : Prop where
  received : ∃ received delivered, u.emitted = received ++ u.wire ∧
    Receives (serverFormat m) (StreamingFrameParser.Represents m) received delivered
      u.server.parser ∧
    Consumed u.server.readerImpl.queue delivered u.results
  listening : u.server.isListening = true
  ending : u.server.readerImpl.queue.ending = if u.halfClosed then some .eos else none
  awake : u.server.readerImpl.queue.NoLostWakeup
  closed : u.halfClosed = true → u.eof = true ∧ u.wire = []

/-- What holds of an upload between two events. -/
def UploadInvariant (payloads : List Bytes) (m : Nat) (u : Upload) : Prop :=
  (∃ w sent queued doneQueued, u.Sending payloads w sent queued doneQueued) ∧ u.Receiving m

/-- The bytes emitted begin the stream. -/
theorem Sending.stream {payloads : List Bytes} {u : Upload} {w : RawClientWriterImpl}
    {sent queued : List Bytes} {doneQueued : Bool}
    (h : u.Sending payloads w sent queued doneQueued) :
    u.emitted ++ (w.outbox.unsent ++ streamOf (queued ++ u.todo)) = streamOf payloads := by
  rw [← List.append_assoc, h.unsent, ← streamOf_append, ← List.append_assoc, ← h.split]

/-- A body that has ended was emitted completely. -/
theorem Sending.emitted_of_eof {payloads : List Bytes} {u : Upload} {w : RawClientWriterImpl}
    {sent queued : List Bytes} {doneQueued : Bool}
    (h : u.Sending payloads w sent queued doneQueued) (heof : u.eof = true) :
    u.emitted = streamOf payloads := by
  obtain ⟨hpending, hdone⟩ := h.eof heof
  have htodo := h.complete (by rw [h.issued, hdone, Bool.or_true])
  have hunsent := (Outbox.unsent_eq_nil h.wellFormed).2 hpending
  have hstream := h.stream
  rw [hunsent, h.drained hdone, htodo] at hstream
  simpa [streamOf] using hstream

/-- A step that leaves the client's half as it is. -/
theorem Sending.congr {payloads : List Bytes} {u u' : Upload} {w : RawClientWriterImpl}
    {sent queued : List Bytes} {doneQueued : Bool}
    (h : u.Sending payloads w sent queued doneQueued) (hc : u'.client = u.client)
    (ht : u'.todo = u.todo) (hd : u'.doneIssued = u.doneIssued) (he : u'.emitted = u.emitted)
    (hdef : u'.deferred = u.deferred) (heof : u'.eof = u.eof) :
    u'.Sending payloads w sent queued doneQueued :=
  ⟨hc ▸ h.client, ht ▸ h.split, h.wellFormed, he ▸ h.unsent, hd ▸ h.issued, h.pendingDone,
    fun hi => ht ▸ h.complete (hd ▸ hi), h.drained, fun hx => h.deferral (hdef ▸ hx),
    fun hx => h.eof (heof ▸ hx)⟩

/-- A step that leaves the server's half as it is. -/
theorem Receiving.congr {m : Nat} {u u' : Upload} (h : u.Receiving m)
    (hs : u'.server = u.server) (hr : u'.results = u.results) (he : u'.emitted = u.emitted)
    (hw : u'.wire = u.wire) (hh : u'.halfClosed = u.halfClosed)
    (heof : u.eof = true → u'.eof = true) : u'.Receiving m :=
  ⟨by rw [hs, hr, he, hw]; exact h.received, hs ▸ h.listening, by rw [hs, hh]; exact h.ending,
    hs ▸ h.awake, fun hx => ⟨heof (h.closed (hh ▸ hx)).1, hw ▸ (h.closed (hh ▸ hx)).2⟩⟩

/-! ## What an event does -/

section Events

variable {z : Zlib} {u u' : Upload} {w : RawClientWriterImpl} {strand : List StrandTask}

theorem step_write (hc : ClientAt u.client w strand) (hlen : ∀ p ∈ u.todo, p.length < 2 ^ 32)
    (h : step z u .write = some u') :
    ∃ p rest c, u.todo = p :: rest ∧ ClientAt c w (strand ++ [.enqueue (frameOf p)]) ∧
      u' = { u with todo := rest, client := c } := by
  cases ht : u.todo with
  | nil => simp [step, ht] at h
  | cons p rest =>
      obtain ⟨c, hstep, hat⟩ := hc.write (hlen p (by simp [ht]))
      simp only [step, ht, hstep, Option.map_some, Option.some.injEq] at h
      exact ⟨p, rest, c, rfl, hat, h.symm⟩

theorem step_writesDone (hc : ClientAt u.client w strand) (h : step z u .writesDone = some u') :
    u.todo = [] ∧ u.doneIssued = false ∧
      ∃ c, ClientAt c w (strand ++ [.writesDone]) ∧
        u' = { u with doneIssued := true, client := c } := by
  obtain ⟨c, hstep, hat⟩ := hc.writesDone
  simp only [step, hstep, Option.map_some, Option.ite_none_right_eq_some, Option.some.injEq,
    Bool.and_eq_true, Bool.not_eq_true', List.isEmpty_iff] at h
  exact ⟨h.1.1, h.1.2, c, hat, h.2.symm⟩

theorem step_runStrand {queued : List Bytes} {doneQueued : Bool}
    (hc : ClientAt u.client w (strandOf queued doneQueued)) (h : step z u .runStrand = some u') :
    (∃ p ps c, queued = p :: ps ∧
      ClientAt c { w with pending := w.pending ++ [frameOf p] } (strandOf ps doneQueued) ∧
      u' = { u with client := c, deferred := false }) ∨
    (queued = [] ∧ doneQueued = true ∧
      ∃ c, ClientAt c { w with writesDone := true } (strandOf [] false) ∧
        u' = { u with client := c, deferred := false }) := by
  cases hq : queued with
  | cons p ps =>
      subst hq
      obtain ⟨c, hstep, hat, hres⟩ := ClientAt.runEnqueue hc
      simp only [step, hstep, Option.map_some, Option.some.injEq, hres, Bool.not_true,
        Bool.and_false] at h
      exact .inl ⟨p, ps, c, rfl, hat, h.symm⟩
  | nil =>
      subst hq
      cases hdq : doneQueued with
      | false =>
          subst hdq
          have hnil : u.client.strand = [] := hc.strand
          simp [step, StreamingCall.step, hnil] at h
      | true =>
          subst hdq
          obtain ⟨c, hstep, hat, hres⟩ := ClientAt.runWritesDone hc
          simp only [step, hstep, Option.map_some, Option.some.injEq, hres, Bool.not_true,
            Bool.and_false] at h
          exact .inr ⟨rfl, rfl, c, hat, h.symm⟩

/-- A poll ends the body, defers it, or moves bytes from the writer to the wire. -/
theorem step_poll {len : Nat} (hc : ClientAt u.client w strand) (hwf : w.outbox.WellFormed)
    (h : step z u (.poll len) = some u') :
    0 < len ∧ u.deferred = false ∧ u.eof = false ∧ ∃ c w', ClientAt c w' strand ∧
      ((w.pending = [] ∧ w' = w ∧ w.writesDone = true ∧ u' = { u with client := c, eof := true }) ∨
        (w.pending = [] ∧ w' = w ∧ w.writesDone = false ∧
          u' = { u with client := c, deferred := true }) ∨
        (w.pending ≠ [] ∧ w' = { w with
            pending := (w.outbox.drain len).1.blocks
            offset := (w.outbox.drain len).1.offset } ∧
          u' = { u with
            client := c
            emitted := u.emitted ++ (w.outbox.drain len).2
            wire := u.wire ++ (w.outbox.drain len).2 })) := by
  obtain ⟨c, hstep, hat⟩ := hc.poll len
  simp only [step, hc.writer, hstep, Option.map_some, Option.bind_some,
    Option.ite_none_right_eq_some, Option.some.injEq, Bool.and_eq_true, Bool.not_eq_true',
    decide_eq_true_eq] at h
  obtain ⟨⟨⟨hlen, hdef⟩, heof⟩, rfl⟩ := h
  refine ⟨hlen, hdef, heof, c, _, hat, ?_⟩
  by_cases hne : w.pending = []
  · by_cases hwd : w.writesDone = true
    · have hgen : w.clientWriterGenerator len = (w, .eof false) := by
        simp [RawClientWriterImpl.clientWriterGenerator, hne, hwd]
      rw [hgen]
      exact .inl ⟨hne, rfl, hwd, rfl⟩
    · have hgen : w.clientWriterGenerator len = (w, .deferred) := by
        simp [RawClientWriterImpl.clientWriterGenerator, hne, hwd]
      rw [hgen]
      exact .inr (.inl ⟨hne, rfl, by simpa using hwd, rfl⟩)
  · rw [RawClientWriterImpl.clientWriterGenerator_drain len hwf hne]
    exact .inr (.inr ⟨hne, rfl, rfl⟩)

theorem step_deliver {n : Nat} (h : step z u (.deliver n) = some u') :
    0 < n ∧ n ≤ u.wire.length ∧ u.halfClosed = false ∧
      u' = { u with
        wire := u.wire.drop n
        server := u.server.onData z (u.wire.take n) } := by
  simp only [step, Option.ite_none_right_eq_some, Option.some.injEq, Bool.and_eq_true,
    Bool.not_eq_true', decide_eq_true_eq] at h
  exact ⟨h.1.1.1, h.1.1.2, h.1.2, h.2.symm⟩

theorem step_halfClose (h : step z u .halfClose = some u') :
    u.eof = true ∧ u.wire = [] ∧ u.halfClosed = false ∧
      u' = { u with halfClosed := true, server := u.server.onData z [] } := by
  simp only [step, Option.ite_none_right_eq_some, Option.some.injEq, Bool.and_eq_true,
    Bool.not_eq_true', List.isEmpty_iff] at h
  exact ⟨h.1.1.1, h.1.1.2, h.1.2, h.2.symm⟩

theorem step_read (h : step z u .read = some u') :
    u.server.readerImpl.queue.canPop = true ∧
      u' = { u with
        server := u.server.setReader u.server.readerImpl.read.1
        results := u.results ++ u.server.readerImpl.read.2.toList } := by
  simp only [step, Option.ite_none_right_eq_some, Option.some.injEq] at h
  exact ⟨h.1, h.2.symm⟩

end Events

/-! ## The invariant -/

section Steps

variable {payloads : List Bytes} {m : Nat} {z : Zlib} {u u' : Upload}

/-- Until the caller declares the end, no closure or writer knows of it. -/
theorem Sending.open {w : RawClientWriterImpl} {sent queued : List Bytes} {doneQueued : Bool}
    (h : u.Sending payloads w sent queued doneQueued) (hopen : u.doneIssued = false) :
    doneQueued = false ∧ w.writesDone = false := by
  have hi := h.issued
  rw [hopen] at hi
  simpa using hi.symm

/-- What is still to write belongs to the payloads. -/
theorem Sending.todo_lt {w : RawClientWriterImpl} {sent queued : List Bytes} {doneQueued : Bool}
    (h : u.Sending payloads w sent queued doneQueued) (hlen : ∀ p ∈ payloads, p.length < 2 ^ 32) :
    ∀ p ∈ u.todo, p.length < 2 ^ 32 := by
  intro p hp
  apply hlen p
  rw [h.split]
  exact List.mem_append_right _ hp

theorem invariant_write (hlen : ∀ p ∈ payloads, p.length < 2 ^ 32)
    (hu : UploadInvariant payloads m u) (h : step z u .write = some u') :
    UploadInvariant payloads m u' := by
  obtain ⟨⟨w, sent, queued, doneQueued, hs⟩, hr⟩ := hu
  obtain ⟨p, rest, c, ht, hat, rfl⟩ := step_write hs.client (hs.todo_lt hlen) h
  have hopen : u.doneIssued = false := by
    cases hd : u.doneIssued with
    | false => rfl
    | true =>
        rw [hs.complete hd] at ht
        cases ht
  obtain ⟨rfl, hwd⟩ := hs.open hopen
  refine ⟨⟨w, sent, queued ++ [p], false, ?_, ?_, hs.wellFormed, hs.unsent, ?_,
    fun h => (by cases h), fun h => ?_, fun h => ?_, hs.deferral, hs.eof⟩,
    hr.congr rfl rfl rfl rfl rfl id⟩
  · simpa [strandOf] using hat
  · rw [hs.split, ht]
    simp
  · rw [hopen, hwd]
    rfl
  · rw [hopen] at h
    cases h
  · rw [hwd] at h
    cases h

theorem invariant_writesDone (hu : UploadInvariant payloads m u)
    (h : step z u .writesDone = some u') : UploadInvariant payloads m u' := by
  obtain ⟨⟨w, sent, queued, doneQueued, hs⟩, hr⟩ := hu
  obtain ⟨htodo, hopen, c, hat, rfl⟩ := step_writesDone hs.client h
  obtain ⟨rfl, hwd⟩ := hs.open hopen
  refine ⟨⟨w, sent, queued, true, ?_, hs.split, hs.wellFormed, hs.unsent, rfl, fun _ => hwd,
    fun _ => htodo, fun h => ?_, hs.deferral, hs.eof⟩,
    hr.congr rfl rfl rfl rfl rfl id⟩
  · simpa [strandOf] using hat
  · rw [hwd] at h
    cases h

theorem invariant_runStrand (hu : UploadInvariant payloads m u)
    (h : step z u .runStrand = some u') : UploadInvariant payloads m u' := by
  obtain ⟨⟨w, sent, queued, doneQueued, hs⟩, hr⟩ := hu
  rcases step_runStrand hs.client h with ⟨p, ps, c, rfl, hat, rfl⟩ | ⟨rfl, rfl, c, hat, rfl⟩
  · have hwd : w.writesDone = false := by
      cases hd : w.writesDone with
      | false => rfl
      | true => exact absurd (hs.drained hd) (by simp)
    have hwf := Outbox.enqueue_wellFormed hs.wellFormed (frameOf_ne_nil p)
    refine ⟨⟨_, sent ++ [p], ps, doneQueued, hat, ?_, hwf, ?_, hs.issued, hs.pendingDone,
      hs.complete, fun h => ?_, fun h => (by cases h), fun h => ?_⟩,
      hr.congr rfl rfl rfl rfl rfl id⟩
    · rw [hs.split]
      simp
    · have hun := Outbox.enqueue_unsent hs.wellFormed (frameOf p)
      rw [streamOf_append, ← hs.unsent, streamOf_singleton, List.append_assoc, ← hun]
      rfl
    · exact absurd (hwd.symm.trans h) (by simp)
    · exact absurd (hwd.symm.trans (hs.eof h).2) (by simp)
  · have hwd := hs.pendingDone rfl
    refine ⟨⟨_, sent, [], false, hat, hs.split, hs.wellFormed, hs.unsent, ?_,
      fun h => (by cases h), hs.complete, fun _ => rfl, fun h => (by cases h), fun h => ?_⟩,
      hr.congr rfl rfl rfl rfl rfl id⟩
    · rw [hs.issued]
      rfl
    · exact absurd (hwd.symm.trans (hs.eof h).2) (by simp)

theorem invariant_poll {len : Nat} (hu : UploadInvariant payloads m u)
    (h : step z u (.poll len) = some u') : UploadInvariant payloads m u' := by
  obtain ⟨⟨w, sent, queued, doneQueued, hs⟩, hr⟩ := hu
  obtain ⟨_, hdef, heof, c, w', hat, hcase⟩ := step_poll hs.client hs.wellFormed h
  rcases hcase with ⟨hne, rfl, hwd, rfl⟩ | ⟨hne, rfl, hwd, rfl⟩ | ⟨hne, rfl, rfl⟩
  · exact ⟨⟨_, sent, queued, doneQueued, hat, hs.split, hs.wellFormed, hs.unsent, hs.issued,
      hs.pendingDone, hs.complete, hs.drained, hs.deferral, fun _ => ⟨hne, hwd⟩⟩,
      hr.congr rfl rfl rfl rfl rfl fun _ => rfl⟩
  · exact ⟨⟨_, sent, queued, doneQueued, hat, hs.split, hs.wellFormed, hs.unsent, hs.issued,
      hs.pendingDone, hs.complete, hs.drained, fun _ => ⟨hne, hwd⟩, hs.eof⟩,
      hr.congr rfl rfl rfl rfl rfl id⟩
  · refine ⟨⟨_, sent, queued, doneQueued, hat, hs.split, Outbox.drain_wellFormed hs.wellFormed len,
      ?_, hs.issued, hs.pendingDone, hs.complete, hs.drained, ?_, ?_⟩, ?_⟩
    · show u.emitted ++ (w.outbox.drain len).2 ++ (w.outbox.drain len).1.unsent = streamOf sent
      rw [List.append_assoc, Outbox.drain_unsent hs.wellFormed, hs.unsent]
    · exact fun h => absurd (hdef.symm.trans h) (by simp)
    · exact fun h => absurd (heof.symm.trans h) (by simp)
    · obtain ⟨received, delivered, hemit, hrec, hcons⟩ := hr.received
      refine ⟨⟨received, delivered, ?_, hrec, hcons⟩, hr.listening, hr.ending, hr.awake,
        fun h => ?_⟩
      · show u.emitted ++ (w.outbox.drain len).2 = received ++ (u.wire ++ (w.outbox.drain len).2)
        rw [hemit, List.append_assoc]
      · exact absurd (heof.symm.trans (hr.closed h).1) (by simp)

theorem invariant_deliver {n : Nat} (hfits : Fits (serverFormat m) payloads)
    (hu : UploadInvariant payloads m u) (h : step z u (.deliver n) = some u') :
    UploadInvariant payloads m u' := by
  obtain ⟨⟨w, sent, queued, doneQueued, hs⟩, hr⟩ := hu
  obtain ⟨hn, hle, hopen, rfl⟩ := step_deliver h
  obtain ⟨received, delivered, hemit, hrec, hcons⟩ := hr.received
  have hne : u.wire.take n ≠ [] := by
    intro h0
    have hl : (u.wire.take n).length = 0 := by rw [h0]; rfl
    rw [List.length_take] at hl
    omega
  have hstream : received ++ u.wire.take n ++
      (u.wire.drop n ++ (w.outbox.unsent ++ streamOf (queued ++ u.todo))) = streamOf payloads := by
    rw [← hs.stream, hemit]
    simp only [List.append_assoc]
    rw [← List.append_assoc (u.wire.take n), List.take_append_drop]
  obtain ⟨hok, hrec'⟩ := hrec.feed (r := u.server.parser.feed (u.wire.take n)) hfits
    (fun got hgot => StreamingFrameParser.feed_agrees hgot _) hstream
  obtain ⟨hparser, hqueue, hlisten⟩ := UploadServer.onData_ok (z := z) hr.listening hne hok
  have hend : u.server.readerImpl.queue.ending = none := by rw [hr.ending, hopen]; rfl
  obtain ⟨hcons', hend'⟩ := hcons.pushAll hend (u.server.parser.feed (u.wire.take n)).messages
  refine ⟨⟨w, sent, queued, doneQueued, hs.congr rfl rfl rfl rfl rfl rfl⟩,
    ⟨⟨_, _, ?_, hparser ▸ hrec', hqueue ▸ hcons'⟩, hlisten, ?_, ?_, ?_⟩⟩
  · show u.emitted = received ++ u.wire.take n ++ u.wire.drop n
    rw [List.append_assoc, List.take_append_drop, hemit]
  · show (u.server.onData z (u.wire.take n)).readerImpl.queue.ending = _
    rw [hqueue, hend']
    exact (if_neg (by simp [hopen])).symm
  · show (u.server.onData z (u.wire.take n)).readerImpl.queue.NoLostWakeup
    rw [hqueue]
    exact pushAll_noLostWakeup hr.awake _
  · exact fun h => absurd (hopen.symm.trans h) (by simp)

theorem invariant_halfClose (hu : UploadInvariant payloads m u)
    (h : step z u .halfClose = some u') : UploadInvariant payloads m u' := by
  obtain ⟨⟨w, sent, queued, doneQueued, hs⟩, hr⟩ := hu
  obtain ⟨heof, hwire, hopen, rfl⟩ := step_halfClose h
  obtain ⟨received, delivered, hemit, hrec, hcons⟩ := hr.received
  obtain ⟨hparser, hqueue, hlisten⟩ := UploadServer.onData_halfClose (z := z) hr.listening
  have hend : u.server.readerImpl.queue.ending = none := by rw [hr.ending, hopen]; rfl
  refine ⟨⟨w, sent, queued, doneQueued, hs.congr rfl rfl rfl rfl rfl rfl⟩,
    ⟨⟨received, delivered, hemit, hparser ▸ hrec, ?_⟩, hlisten, ?_, ?_, fun _ =>
      ⟨heof, hwire⟩⟩⟩
  · rw [hqueue]
    exact hcons.congr hend (by simp)
  · show (u.server.onData z []).readerImpl.queue.ending = some .eos
    rw [hqueue]
    exact StreamMessageQueue.setEos_ending (StreamMessageQueue.ending_eq_none hend).1
  · show (u.server.onData z []).readerImpl.queue.NoLostWakeup
    rw [hqueue]
    exact StreamMessageQueue.setEos_noLostWakeup _

theorem invariant_read (hu : UploadInvariant payloads m u) (h : step z u .read = some u') :
    UploadInvariant payloads m u' := by
  obtain ⟨⟨w, sent, queued, doneQueued, hs⟩, hr⟩ := hu
  obtain ⟨_, rfl⟩ := step_read h
  obtain ⟨received, delivered, hemit, hrec, hcons⟩ := hr.received
  refine ⟨⟨w, sent, queued, doneQueued, hs.congr rfl rfl rfl rfl rfl rfl⟩,
    ⟨⟨received, delivered, hemit, by simpa using hrec, ?_⟩, by simpa using hr.listening, ?_, ?_,
      hr.closed⟩⟩
  · simpa [RawServerReaderImpl.read] using hcons.pop
  · simpa [RawServerReaderImpl.read] using hr.ending
  · simpa [RawServerReaderImpl.read] using StreamMessageQueue.pop_noLostWakeup _

/-- **Every event keeps the two halves.** -/
theorem uploadInvariant_step (hlen : ∀ p ∈ payloads, p.length < 2 ^ 32)
    (hfits : Fits (serverFormat m) payloads) {e : UploadEvent} (hu : UploadInvariant payloads m u)
    (h : step z u e = some u') : UploadInvariant payloads m u' := by
  cases e with
  | write => exact invariant_write hlen hu h
  | writesDone => exact invariant_writesDone hu h
  | runStrand => exact invariant_runStrand hu h
  | poll len => exact invariant_poll hu h
  | deliver n => exact invariant_deliver hfits hu h
  | halfClose => exact invariant_halfClose hu h
  | read => exact invariant_read hu h

end Steps

/-! ## Progress -/

/-- What a closure on the strand still costs. -/
def taskCost : StrandTask → Nat
  | .enqueue frame => 2 * frame.length + 2
  | .writesDone => 2
  | _ => 0

/-- An upper bound on the events other than reads that are still to come. -/
def remaining (u : Upload) : Nat :=
  (u.todo.map fun p => 2 * (frameOf p).length + 3).sum + (u.client.strand.map taskCost).sum +
    2 * (u.client.call.writer.map fun w => w.outbox.unsent.length).getD 0 + u.wire.length +
    3 * (!u.doneIssued).toNat + (!u.deferred).toNat + (!u.eof).toNat + (!u.halfClosed).toNat

theorem remaining_of_client {u : Upload} {w : RawClientWriterImpl} {strand : List StrandTask}
    (h : ClientAt u.client w strand) :
    u.remaining = (u.todo.map fun p => 2 * (frameOf p).length + 3).sum +
      (strand.map taskCost).sum + 2 * w.outbox.unsent.length + u.wire.length +
      3 * (!u.doneIssued).toNat + (!u.deferred).toNat + (!u.eof).toNat +
      (!u.halfClosed).toNat := by
  rw [remaining, h.strand, h.writer]
  rfl

/-- **Every event other than a read brings the upload closer to its end.** -/
theorem remaining_decreases {payloads : List Bytes} {m : Nat} {z : Zlib} {u u' : Upload}
    (hlen : ∀ p ∈ payloads, p.length < 2 ^ 32) {e : UploadEvent}
    (hu : UploadInvariant payloads m u) (he : e ≠ .read) (h : step z u e = some u') :
    u'.remaining < u.remaining := by
  obtain ⟨⟨w, sent, queued, doneQueued, hs⟩, hr⟩ := hu
  rw [remaining_of_client hs.client]
  cases e with
  | read => exact absurd rfl he
  | write =>
      obtain ⟨p, rest, c, ht, hat, rfl⟩ := step_write hs.client (hs.todo_lt hlen) h
      rw [remaining_of_client hat]
      simp only [ht, List.map_append, List.map_cons, List.map_nil, List.sum_append, List.sum_cons,
        List.sum_nil, taskCost]
      omega
  | writesDone =>
      obtain ⟨htodo, hopen, c, hat, rfl⟩ := step_writesDone hs.client h
      rw [remaining_of_client hat]
      simp only [hopen, List.map_append, List.map_cons, List.map_nil, List.sum_append,
        List.sum_cons, List.sum_nil, taskCost, Bool.not_true, Bool.not_false, Bool.toNat_true,
        Bool.toNat_false]
      omega
  | runStrand =>
      have hdef : (!u.deferred).toNat ≤ 1 := Bool.toNat_le _
      rcases step_runStrand hs.client h with ⟨p, ps, c, rfl, hat, rfl⟩ | ⟨rfl, rfl, c, hat, rfl⟩
      · have hun := congrArg List.length (Outbox.enqueue_unsent hs.wellFormed (frameOf p))
        have hout : RawClientWriterImpl.outbox { w with pending := w.pending ++ [frameOf p] } =
            w.outbox.enqueue (frameOf p) := rfl
        rw [remaining_of_client hat, hout, hun]
        simp only [strandOf, List.map_append, List.map_cons, List.cons_append, List.sum_cons,
          List.length_append, taskCost, Bool.not_false, Bool.toNat_true]
        omega
      · rw [remaining_of_client hat]
        simp only [strandOf, RawClientWriterImpl.outbox, List.map_cons, List.map_nil,
          List.nil_append, if_true, Bool.false_eq_true, if_false, List.sum_cons,
          List.sum_nil, taskCost, Bool.not_false, Bool.toNat_true]
        omega
  | poll len =>
      obtain ⟨hpos, hdef, heof, c, w', hat, hcase⟩ := step_poll hs.client hs.wellFormed h
      -- the generator ends the stream, defers, or takes bytes from the outbox
      rcases hcase with ⟨hne, rfl, hwd, rfl⟩ | ⟨hne, rfl, hwd, rfl⟩ | ⟨hne, rfl, rfl⟩
      · rw [remaining_of_client hat]
        simp only [heof, Bool.not_true, Bool.not_false, Bool.toNat_true, Bool.toNat_false]
        omega
      · rw [remaining_of_client hat]
        simp only [hdef, Bool.not_true, Bool.not_false, Bool.toNat_true, Bool.toNat_false]
        omega
      · have hun := congrArg List.length (Outbox.drain_unsent hs.wellFormed len)
        rw [List.length_append] at hun
        have hsome := List.length_pos_iff.2 (Outbox.drain_progress hs.wellFormed hpos hne)
        rw [remaining_of_client hat]
        show _ + 2 * (w.outbox.drain len).1.unsent.length + _ + _ + _ + _ + _ < _
        simp only [List.length_append]
        omega
  | deliver n =>
      obtain ⟨hn, hle, hopen, rfl⟩ := step_deliver h
      have hat : ClientAt (Upload.client { u with
          wire := u.wire.drop n
          server := u.server.onData z (u.wire.take n) }) w _ := hs.client
      rw [remaining_of_client hat]
      simp only [List.length_drop]
      omega
  | halfClose =>
      obtain ⟨heof, hwire, hopen, rfl⟩ := step_halfClose h
      have hat : ClientAt (Upload.client { u with
          halfClosed := true
          server := u.server.onData z [] }) w _ := hs.client
      rw [remaining_of_client hat]
      simp only [hopen, Bool.not_true, Bool.not_false, Bool.toNat_true, Bool.toNat_false]
      omega

/-- Only reads are left. -/
def Quiescent (z : Zlib) (u : Upload) : Prop := ∀ e, e ≠ .read → step z u e = none

/-- An upload on which only reads are left is complete, and a read of it is answered. -/
theorem quiescent_complete {payloads : List Bytes} {m : Nat} {z : Zlib} {u : Upload}
    (hlen : ∀ p ∈ payloads, p.length < 2 ^ 32) (hu : UploadInvariant payloads m u)
    (hq : Quiescent z u) :
    u.eof = true ∧ u.halfClosed = true ∧
      ∃ u', step z u .read = some u' ∧ u'.results.length = u.results.length + 1 := by
  obtain ⟨⟨w, sent, queued, doneQueued, hs⟩, hr⟩ := hu
  -- every write and `WritesDone` have been issued, and the strand has run their closures
  have htodo : u.todo = [] := by
    cases ht : u.todo with
    | nil => rfl
    | cons p rest =>
        obtain ⟨c, hstep, _⟩ := hs.client.write (hs.todo_lt hlen p (by simp [ht]))
        have hnone := hq .write (by simp)
        simp [step, ht, hstep] at hnone
  have hissued : u.doneIssued = true := by
    obtain ⟨c, hstep, _⟩ := hs.client.writesDone
    have hnone := hq .writesDone (by simp)
    simpa [step, htodo, hstep] using hnone
  have hstrand : strandOf queued doneQueued = [] := by
    have hnone := hq .runStrand (by simp)
    rw [← hs.client.strand]
    cases hx : u.client.strand with
    | nil => rfl
    | cons t rest => simp [step, StreamingCall.step, hx] at hnone
  have hdone : w.writesDone = true := by
    have hi := hs.issued
    rw [hissued] at hi
    cases doneQueued with
    | false => simpa using hi.symm
    | true => simp [strandOf] at hstrand
  have hdef : u.deferred = false := by
    cases hd : u.deferred with
    | false => rfl
    | true => exact absurd (hdone.symm.trans (hs.deferral hd).2) (by simp)
  -- the session polls the queue until it has answered with the end of the stream
  have heof : u.eof = true := by
    obtain ⟨c, hstep, _⟩ := hs.client.poll 1
    have hnone := hq (.poll 1) (by simp)
    simpa [step, hdef, hs.client.writer, hstep] using hnone
  have hwire : u.wire = [] := by
    by_cases hne : u.wire = []
    · exact hne
    · have hnone := hq (.deliver 1) (by simp)
      have hpos := List.length_pos_iff.2 hne
      have hopen : u.halfClosed = true := by
        simpa [step, Nat.succ_le_iff.2 hpos] using hnone
      exact (hr.closed hopen).2
  have hclosed : u.halfClosed = true := by
    have hnone := hq .halfClose (by simp)
    simpa [step, heof, hwire] using hnone
  -- the half-close has ended the queue of the handler, so that its read answers
  have hend : u.server.readerImpl.queue.ending = some .eos := by rw [hr.ending, hclosed]; rfl
  have hpop : u.server.readerImpl.queue.canPop = true := by
    have hready := hr.awake.of_ending (by rw [hend]; rfl)
    simpa [StreamMessageQueue.canPop] using hready
  obtain ⟨res, hres⟩ := Option.isSome_iff_exists.1
    (pop_isSome (q := u.server.readerImpl.queue) (by rw [hend]; rfl))
  refine ⟨heof, hclosed, _, if_pos hpop, ?_⟩
  simp [RawServerReaderImpl.read, hres]

/-! ## The round trip -/

/-- What the ends of an upload of `payloads` may rely on: the body is the stream of the payloads, it
is not left deferred on a frame or an end, the reads return the payloads in order and then
end-of-stream, and without reads it comes to a rest at which everything has arrived. -/
structure RoundTrip (z : Zlib) (payloads : List Bytes) (u : Upload) : Prop where
  emitted : u.emitted <+: streamOf payloads
  complete : u.eof = true → u.emitted = streamOf payloads
  writer : ∃ w, u.client.call.writer = some w ∧ w.req.isSome = true ∧
    (u.deferred = true → w.pending = [] ∧ w.writesDone = false)
  results : u.results <+: payloads.map .message ++ List.replicate u.results.length .eos
  bounded : ∃ n, ∀ es v, (∀ e ∈ es, e ≠ .read) → (machine z).run u es = some v → es.length ≤ n
  rests : ∃ es v, (∀ e ∈ es, e ≠ .read) ∧ (machine z).run u es = some v ∧ Quiescent z v
  answered : Quiescent z u → u.eof = true ∧ u.halfClosed = true ∧
    ∃ u', step z u .read = some u' ∧ u'.results.length = u.results.length + 1

theorem UploadInvariant.roundTrip {payloads : List Bytes} {m : Nat} {z : Zlib} {u : Upload}
    (hlen : ∀ p ∈ payloads, p.length < 2 ^ 32) (hfits : Fits (serverFormat m) payloads)
    (hu : UploadInvariant payloads m u) : RoundTrip z payloads u := by
  obtain ⟨⟨w, sent, queued, doneQueued, hs⟩, hr⟩ := id hu
  obtain ⟨received, delivered, hemit, hrec, hcons⟩ := hr.received
  have hstream := hs.stream
  rw [hemit, List.append_assoc] at hstream
  obtain ⟨hpre, hall⟩ := hrec.delivered hfits hstream
  have hstep : ∀ s e t, UploadInvariant payloads m s → (machine z).step s e = some t →
      UploadInvariant payloads m t := fun s e t hs ht => uploadInvariant_step hlen hfits hs ht
  have hdec : ∀ s e t, UploadInvariant payloads m s → e ≠ .read →
      (machine z).step s e = some t → t.remaining < s.remaining :=
    fun s e t hs he ht => remaining_decreases hlen hs he ht
  refine ⟨⟨_, hs.stream⟩, hs.emitted_of_eof, ⟨w, hs.client.writer, hs.client.req, hs.deferral⟩, ?_,
    ⟨u.remaining, fun es v hes hrun => Machine.run_length_le hstep hdec es u v hu hes hrun⟩,
    Machine.exists_quiescent hstep hdec u hu, quiescent_complete hlen hu⟩
  apply hcons.results hpre
  intro e' he'
  rw [hr.ending] at he'
  cases hclosed : u.halfClosed with
  | false => simp [hclosed] at he'
  | true =>
      obtain ⟨heof, hwire⟩ := hr.closed hclosed
      refine ⟨by simpa [hclosed] using he'.symm, ?_⟩
      have hrecv : received ++ [] = streamOf payloads := by
        rw [← hs.emitted_of_eof heof, hemit, hwire]
      exact (hrec.delivered hfits hrecv).2 rfl

/-- The upload of a call of a kind, from the moment its stream is accepted. -/
def start (kind : CallKind) (ctx : Option ClientContext) (id : StreamId) (payloads : List Bytes)
    (maxMessageSize maxMetadataSize maxResponseSize : Nat) (peerIdentity : Bytes) : Upload :=
  Upload.new kind ctx id payloads
    (UploadServer.new kind maxMessageSize maxMetadataSize maxResponseSize peerIdentity)

theorem uploadInvariant_start {kind : CallKind} (hkind : kind ≠ .serverStreaming)
    (ctx : Option ClientContext) (id : StreamId) (payloads : List Bytes)
    (m maxMetadataSize maxResponseSize : Nat) (peerIdentity : Bytes) :
    UploadInvariant payloads m
      (start kind ctx id payloads m maxMetadataSize maxResponseSize peerIdentity) := by
  obtain ⟨hparser, hreader, hlisten⟩ :=
    UploadServer.fresh kind m maxMetadataSize maxResponseSize peerIdentity
  have hclient : ClientAt
      (start kind ctx id payloads m maxMetadataSize maxResponseSize peerIdentity).client
      { RawClientWriterImpl.new with req := some id } (strandOf [] false) := by
    cases kind with
    | serverStreaming => exact absurd rfl hkind
    | clientStreaming => exact ⟨rfl, rfl, rfl, rfl, rfl, rfl⟩
    | bidi => exact ⟨rfl, rfl, rfl, rfl, rfl, rfl⟩
  refine ⟨⟨_, [], [], false, hclient, rfl, Outbox.empty_wellFormed, rfl, rfl,
    fun h => (by cases h), fun h => (by cases h), fun h => (by cases h), fun h => (by cases h),
    fun h => (by cases h)⟩, ⟨⟨[], [], rfl, ?_, ?_⟩, hlisten, ?_, ?_, fun h => (by cases h)⟩⟩
  · exact receives_new (hparser ▸ StreamingFrameParser.new_represents m)
  · exact hreader ▸ consumed_new
  · show (UploadServer.new kind m maxMetadataSize maxResponseSize
      peerIdentity).readerImpl.queue.ending = none
    rw [hreader]
    rfl
  · exact hreader ▸ StreamMessageQueue.new_noLostWakeup

/-- **What a caller writes, the handler reads.** In every state an upload of a client-streaming or
bidirectional call can reach, whatever the order of writes, closures, polls, deliveries and
reads. -/
theorem upload_round_trip (z : Zlib) {kind : CallKind} (hkind : kind ≠ .serverStreaming)
    (ctx : Option ClientContext) (id : StreamId) (payloads : List Bytes)
    (maxMessageSize maxMetadataSize maxResponseSize : Nat) (peerIdentity : Bytes)
    (hsize : ∀ p ∈ payloads, p.length ≤ maxMessageSize ∧ p.length < 2 ^ 32) {u : Upload}
    (hu : (machine z).Reaches
      (start kind ctx id payloads maxMessageSize maxMetadataSize maxResponseSize peerIdentity) u) :
    RoundTrip z payloads u := by
  have hlen : ∀ p ∈ payloads, p.length < 2 ^ 32 := fun p hp => (hsize p hp).2
  have hfits : Fits (serverFormat maxMessageSize) payloads :=
    fun p hp => messageFrame_serverFormat (hsize p hp).1 (hsize p hp).2
  have hinv : UploadInvariant payloads maxMessageSize u :=
    hu.invariant (I := UploadInvariant payloads maxMessageSize)
      (fun _ _ _ hs ht => uploadInvariant_step hlen hfits hs ht)
      (uploadInvariant_start hkind ctx id payloads maxMessageSize maxMetadataSize maxResponseSize
        peerIdentity)
  exact hinv.roundTrip hlen hfits

/-- A message and the end, polled and delivered in pieces, and read before and after they arrive. -/
def exampleUpload : List UploadEvent :=
  [.write, .poll 8, .runStrand, .poll 4, .deliver 3, .writesDone, .poll 9, .runStrand, .read,
    .deliver 3, .poll 1, .halfClose, .read, .read, .read]

theorem upload_round_trip_example :
    ∃ u, (machine Zlib.none).run (start .bidi none 1 [[7]] 100 100 100 []) exampleUpload = some u ∧
      u.results = [.message [7], .eos, .eos] ∧ RoundTrip Zlib.none [[7]] u := by
  have hrun : ((machine Zlib.none).run (start .bidi none 1 [[7]] 100 100 100 [])
      exampleUpload).map (·.results) = some [.message [7], .eos, .eos] := by decide
  obtain ⟨u, hu, hres⟩ := Option.map_eq_some_iff.1 hrun
  exact ⟨u, hu, hres, upload_round_trip Zlib.none (by decide) none 1 [[7]] 100 100 100 []
    (by decide) ⟨exampleUpload, hu⟩⟩

end Upload

end Rpcpio.Stream
