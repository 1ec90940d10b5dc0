import Rpcpio.Stream.ResponseSide
import Rpcpio.Stream.UploadRoundTrip

/-!
# The request side of a streaming call

What a client-streaming and a bidirectional call have in common from the caller's writes on. The
messages are not known in advance, so a side is an upload (`RequestSide.toUpload`) whose messages
may be extended until the end is declared (`UploadInvariant.extend`). It shares the client's strand
with the closures of the response: it sees its own closures only (`ownStream_step`), and what the
others do to the writer leaves it alone (`Keeps`). Each event of a call that the side sees is one
lemma here.
-/

set_option autoImplicit false

namespace Rpcpio.Stream

open Rpcpio.Library Rpcpio.Protocol Rpcpio.Client Rpcpio.Server

/-! ## Messages and an end that come later -/

/-- A stream whose caller has not declared its end may get more messages. -/
theorem Upload.UploadInvariant.extend {payloads : List Bytes} {m : Nat} {u : Upload}
    (h : u.UploadInvariant payloads m) (hopen : u.doneIssued = false) (more : List Bytes) :
    Upload.UploadInvariant (payloads ++ more) m { u with todo := u.todo ++ more } := by
  obtain ⟨⟨w, sent, queued, doneQueued, hs⟩, hr⟩ := h
  refine ⟨⟨w, sent, queued, doneQueued, { hs with
    client := hs.client, split := ?_, complete := fun hi => ?_ }⟩,
    hr.congr rfl rfl rfl rfl rfl id⟩
  · rw [hs.split, List.append_assoc]
  · exact absurd (hopen.symm.trans hi) (by simp)

/-! ## The client's strand -/

/-- The client as the caller's own stream sees it: only its own closures on the strand. -/
def ownStream (c : StreamingCall) : StreamingCall :=
  { c with strand := c.strand.filter isUploadTask }

theorem ownStream_post {c : StreamingCall} {t : StrandTask} (ht : isUploadTask t = true) :
    ownStream (c.post t) = (ownStream c).post t := by
  simp [ownStream, StreamingCall.post, ht]

/-- The caller's own stream sees its own events. -/
theorem ownStream_step {c c' : StreamingCall} {e : CallEvent} (he : isUploadEvent e = true)
    (h : c.step e = some c') : (ownStream c).step e = some (ownStream c') := by
  cases e with
  | write payload =>
      simp only [StreamingCall.step, Option.ite_none_right_eq_some, Option.some.injEq] at h
      obtain ⟨hg, rfl⟩ := h
      refine (if_pos hg).trans (congrArg some ?_)
      split
      · rfl
      · exact (ownStream_post rfl).symm
  | writesDone =>
      simp only [StreamingCall.step, Option.ite_none_right_eq_some, Option.some.injEq] at h
      obtain ⟨hg, rfl⟩ := h
      exact (if_pos hg).trans (congrArg some (ownStream_post rfl).symm)
  | poll len =>
      simp only [StreamingCall.step, Option.ite_none_right_eq_some, Option.some.injEq] at h
      obtain ⟨hg, rfl⟩ := h
      exact if_pos hg
  | submit | response | data | trailers | close | runStrand | runIoc | expire | timerHandler | read
  | cancel | goaway | shutdown => cases he

/-- The caller's own stream sees its own closures run. -/
theorem ownStream_runStrand {c : StreamingCall} {t : StrandTask} {rest : List StrandTask}
    (hs : c.strand = t :: rest) (ht : isUploadTask t = true) :
    (ownStream c).step .runStrand =
      some (ownStream (StreamingCall.runTask { c with strand := rest } t)) := by
  have hfilter : c.strand.filter isUploadTask = t :: rest.filter isUploadTask := by
    rw [hs, List.filter_cons_of_pos ht]
  have hwriter (f : RawClientWriterImpl → RawClientWriterImpl × List RequestCall) :
      StreamingCall.onWriter { ownStream c with strand := rest.filter isUploadTask } f =
        ownStream (StreamingCall.onWriter { c with strand := rest } f) := by
    simp only [StreamingCall.onWriter, ownStream]
    split <;> rfl
  simp only [StreamingCall.step, ownStream, hfilter]
  cases t with
  | enqueue frame => exact congrArg some (hwriter _)
  | writesDone => exact congrArg some (hwriter _)
  | data | trailers | close | cancel | deadline => cases ht

/-- A client goes on with the caller's own stream where another one was. -/
def Keeps (c c' : StreamingCall) : Prop :=
  ∀ w strand, ClientAt (ownStream c) w strand →
    ∃ w', ClientAt (ownStream c') w' strand ∧ w'.outbox = w.outbox ∧ w'.writesDone = w.writesDone

theorem Keeps.of_writer {c c' : StreamingCall} (hw : c'.call.writer = c.call.writer)
    (hsub : c'.submitted = c.submitted) (hid : c'.streamId = c.streamId)
    (hclosed : c'.sessionClosed = c.sessionClosed)
    (hstrand : c'.strand.filter isUploadTask = c.strand.filter isUploadTask) : Keeps c c' :=
  fun w _ h => ⟨w, ⟨hw.trans h.writer, h.req, hsub.trans h.submitted,
    (congrArg Option.isSome hid).trans h.streamId, hclosed.trans h.sessionClosed,
    hstrand.trans h.strand⟩, rfl, rfl⟩

/-- The caller's half of the stream under another client. -/
theorem Keeps.sending {payloads : List Bytes} {m : Nat} {u : Upload} {c c' : StreamingCall}
    (hk : Keeps c c') (hc : u.client = ownStream c) (h : u.UploadInvariant payloads m) :
    Upload.UploadInvariant payloads m { u with client := ownStream c' } := by
  obtain ⟨⟨w, sent, queued, doneQueued, hs⟩, hr⟩ := h
  obtain ⟨w', hat, hout, hdone⟩ := hk w _ (hc ▸ hs.client)
  have hpending : w'.pending = w.pending := congrArg Outbox.blocks hout
  refine ⟨⟨w', sent, queued, doneQueued, ⟨hat, hs.split, hout ▸ hs.wellFormed, ?_, ?_, ?_,
    hs.complete, ?_, ?_, ?_⟩⟩, hr.congr rfl rfl rfl rfl rfl id⟩
  · rw [hout]
    exact hs.unsent
  · rw [hdone]
    exact hs.issued
  · rw [hdone]
    exact hs.pendingDone
  · rw [hdone]
    exact hs.drained
  · rw [hpending, hdone]
    exact hs.deferral
  · rw [hpending, hdone]
    exact hs.eof

/-- Neither half costs more or less under another client that goes on with the stream. -/
theorem Keeps.remaining {payloads : List Bytes} {m : Nat} {u : Upload} {c c' : StreamingCall}
    (hk : Keeps c c') (hc : u.client = ownStream c) (h : u.UploadInvariant payloads m) :
    Upload.remaining { u with client := ownStream c' } = u.remaining := by
  obtain ⟨⟨w, sent, queued, doneQueued, hs⟩, _⟩ := h
  obtain ⟨w', hat, hout, _⟩ := hk w _ (hc ▸ hs.client)
  have hat' : ClientAt (Upload.client { u with client := ownStream c' }) w' _ := hat
  rw [Upload.remaining_of_client hs.client, Upload.remaining_of_client hat', hout]

/-- The reads leave the caller's own stream alone. -/
theorem keeps_read {c c' : StreamingCall} (h : c.step .read = some c') : Keeps c c' := by
  simp only [StreamingCall.step] at h
  split at h
  · cases h
  · simp only [Option.ite_none_right_eq_some, Option.some.injEq] at h
    obtain ⟨_, rfl⟩ := h
    exact .of_writer rfl rfl rfl rfl rfl

/-- What the response does to a writer: its stream goes on. -/
def SameStream (f : RawClientWriterImpl → RawClientWriterImpl) : Prop :=
  ∀ w, (f w).outbox = w.outbox ∧ (f w).writesDone = w.writesDone ∧ (f w).req = w.req

theorem Keeps.of_map {c c' : StreamingCall} {f : RawClientWriterImpl → RawClientWriterImpl}
    (hf : SameStream f) (hw : c'.call.writer = c.call.writer.map f)
    (hsub : c'.submitted = c.submitted) (hid : c'.streamId = c.streamId)
    (hclosed : c'.sessionClosed = c.sessionClosed)
    (hstrand : c'.strand.filter isUploadTask = c.strand.filter isUploadTask) : Keeps c c' := by
  intro w strand h
  obtain ⟨hout, hdone, hreq⟩ := hf w
  have hwriter : c.call.writer = some w := h.writer
  refine ⟨f w, ⟨?_, hreq ▸ h.req, hsub.trans h.submitted,
    (congrArg Option.isSome hid).trans h.streamId, hclosed.trans h.sessionClosed,
    hstrand.trans h.strand⟩, hout, hdone⟩
  exact hw.trans (by rw [hwriter]; rfl)

/-- The messages of a chunk go to the reader, or are kept by the writer. -/
theorem writer_foldl_deliver (c : StreamingCallState) (msgs : List Bytes) :
    ∃ f, SameStream f ∧ (msgs.foldl StreamingCallState.deliver c).writer = c.writer.map f := by
  induction msgs generalizing c with
  | nil => exact ⟨id, fun _ => ⟨rfl, rfl, rfl⟩, by simp⟩
  | cons p msgs ih =>
      obtain ⟨f, hf, hw⟩ := ih (c.deliver p)
      cases hr : c.reader with
      | some r =>
          refine ⟨f, hf, hw.trans ?_⟩
          simp [StreamingCallState.deliver, hr]
      | none =>
          refine ⟨fun w => f { w with responseBytes := p, hasResponse := true }, fun w => ?_,
            hw.trans ?_⟩
          · exact hf { w with responseBytes := p, hasResponse := true }
          · simp [StreamingCallState.deliver, hr, Function.comp_def]

theorem writer_onData (c : StreamingCallState) (m : Nat) (chunk : Bytes) :
    ∃ f, SameStream f ∧ (c.onData m chunk).1.writer = c.writer.map f := by
  simp only [StreamingCallState.onData]
  split
  · exact ⟨id, fun _ => ⟨rfl, rfl, rfl⟩, by simp⟩
  · obtain ⟨f, hf, hw⟩ := writer_foldl_deliver { c with lpm := (c.lpm.feed m chunk).parser }
      (c.lpm.feed m chunk).messages
    refine ⟨f, hf, ?_⟩
    split
    · exact hw
    · exact (StreamingCallState.fail_frame (f := fun c => c.writer) (fun _ => rfl) _ _).trans hw

/-- A head that does not fail the call leaves the call alone. -/
theorem keeps_response {c c' : StreamingCall} {head : ResponseHead}
    (hhead : ∀ s, headVerdict head ≠ .rejected s) (h : c.step (.response head) = some c') :
    Keeps c c' := by
  simp only [StreamingCall.step, Option.ite_none_right_eq_some, Option.some.injEq] at h
  obtain ⟨_, rfl⟩ := h
  have hcall : (c.call.attach head).1 = c.call := by
    unfold StreamingCallState.attach
    split
    · exact absurd ‹_› (hhead _)
    · rfl
    · rfl
  exact .of_writer (congrArg (·.writer) hcall) rfl rfl rfl rfl

theorem keeps_post {c : StreamingCall} {t : StrandTask} (ht : isUploadTask t = false) :
    Keeps c (c.post t) := by
  refine .of_writer rfl rfl rfl rfl ?_
  simp [StreamingCall.post, ht]

theorem sameStream_setFinalStatus (s : Status) :
    SameStream fun w => w.setFinalStatus s := fun _ => ⟨rfl, rfl, rfl⟩

theorem keeps_runTask {c : StreamingCall} {t : StrandTask} {rest : List StrandTask}
    (hs : c.strand = t :: rest) (ht : isDownloadTask t = true) :
    Keeps c (StreamingCall.runTask { c with strand := rest } t) := by
  have hstrand : rest.filter isUploadTask = c.strand.filter isUploadTask := by
    have hother : isUploadTask t = false := by
      cases t with
      | data | trailers => rfl
      | close | enqueue | writesDone | cancel | deadline => cases ht
    rw [hs, List.filter_cons_of_neg (by simp [hother])]
  cases t with
  | data m chunk =>
      obtain ⟨f, hf, hw⟩ := writer_onData c.call m chunk
      exact .of_map hf hw rfl rfl rfl hstrand
  | trailers h =>
      by_cases hclosed : c.call.closed = true
      · refine .of_writer ?_ rfl rfl rfl hstrand
        simp [StreamingCall.runTask, StreamingCall.log, StreamingCallState.onTrailers, hclosed]
      · refine .of_map (sameStream_setFinalStatus (extractTrailerStatus h)) ?_ rfl rfl rfl hstrand
        simp [StreamingCall.runTask, StreamingCall.log, StreamingCallState.onTrailers, hclosed,
          StreamingCallState.maybeDeliverStatus, StreamingCallState.setFinalStatus]
  | close | enqueue | writesDone | cancel | deadline => cases ht

theorem keeps_data {c c' : StreamingCall} {chunk : Bytes} (h : c.step (.data chunk) = some c') :
    Keeps c c' := by
  simp only [StreamingCall.step] at h
  split at h
  · cases h
  · simp only [Option.ite_none_right_eq_some, Option.some.injEq] at h
    obtain ⟨_, rfl⟩ := h
    split
    · exact .of_writer rfl rfl rfl rfl rfl
    · exact keeps_post rfl

theorem keeps_trailers {c c' : StreamingCall} {t : HeaderMap}
    (h : c.step (.trailers t) = some c') : Keeps c c' := by
  simp only [StreamingCall.step, Option.ite_none_right_eq_some, Option.some.injEq] at h
  obtain ⟨_, rfl⟩ := h
  exact .of_writer rfl rfl rfl rfl (by simp [StreamingCall.post, isUploadTask])

/-- A closure on the `io_context` publishes a status at most. -/
theorem keeps_runIoc {c c' : StreamingCall} {i : Nat} (h : c.step (.runIoc i) = some c') :
    Keeps c c' := by
  simp only [StreamingCall.step] at h
  split at h
  · cases h
  · rename_i t _
    simp only [Option.some.injEq] at h
    subst h
    have hwriter : ∃ f, SameStream f ∧ (c.call.runIoc t).writer = c.call.writer.map f := by
      have hsame : ∃ f, SameStream f ∧ c.call.writer = c.call.writer.map f :=
        ⟨id, fun _ => ⟨rfl, rfl, rfl⟩, by simp⟩
      cases t with
      | failed s => exact ⟨_, sameStream_setFinalStatus s, rfl⟩
      | streamClosed errorCode trailersDone =>
          cases trailersDone with
          | true => exact hsame
          | false => exact ⟨_, sameStream_setFinalStatus (closeStatus errorCode), rfl⟩
      | trailersOnly s =>
          simp only [StreamingCallState.runIoc]
          split
          · exact hsame
          · exact ⟨_, sameStream_setFinalStatus s, rfl⟩
    obtain ⟨f, hf, hw⟩ := hwriter
    exact .of_map hf hw rfl rfl rfl rfl

/-- Only the closures of the caller's own stream resume its generator. -/
theorem resumed_runTask {c : StreamingCall} {t : StrandTask} {rest : List StrandTask}
    (ht : isDownloadTask t = true) :
    resumed c (StreamingCall.runTask { c with strand := rest } t) = false := by
  cases t with
  | data m chunk => simp [resumed, StreamingCall.runTask, StreamingCall.after]
  | trailers h =>
      simp only [resumed, StreamingCall.runTask, StreamingCall.log, List.drop_left]
      split <;> rfl
  | close | enqueue | writesDone | cancel | deadline => cases ht

/-- A poll of the caller's own stream costs the response nothing. -/
theorem remaining_poll {d : Download} {c : StreamingCall} {len : Nat}
    (h : d.client.step (.poll len) = some c) :
    Download.remaining { d with client := c } = d.remaining := by
  simp only [StreamingCall.step, Option.ite_none_right_eq_some, Option.some.injEq] at h
  obtain ⟨_, rfl⟩ := h
  rfl

/-! ## What the handler reads -/

/-- Before the half-close the handler has read messages only. -/
theorem reads_open {payloads : List Bytes} {m : Nat} {u : Upload}
    (hfits : Fits (serverFormat m) payloads) (h : u.UploadInvariant payloads m)
    (hopen : u.halfClosed = false) : u.results <+: payloads.map .message := by
  obtain ⟨⟨w, sent, queued, doneQueued, hs⟩, hr⟩ := h
  obtain ⟨received, delivered, hemit, hrec, hcons⟩ := hr.received
  have hstream := hs.stream
  rw [hemit, List.append_assoc] at hstream
  have hend : u.server.readerImpl.queue.ending = none := by
    rw [hr.ending, hopen]
    rfl
  obtain ⟨ms, hres, hms⟩ := hcons.open hend
  rw [hres]
  refine List.IsPrefix.map _ (List.IsPrefix.trans ?_ (hrec.delivered hfits hstream).1)
  rw [← hms]
  exact List.prefix_append _ _

/-- The half-close arrives only after the caller has declared the end. -/
theorem issued_of_halfClosed {payloads : List Bytes} {m : Nat} {u : Upload}
    (h : u.UploadInvariant payloads m) (hclosed : u.halfClosed = true) : u.doneIssued = true := by
  obtain ⟨⟨w, sent, queued, doneQueued, hs⟩, hr⟩ := h
  rw [hs.issued, (hs.eof (hr.closed hclosed).1).2, Bool.or_true]

/-! ## At rest -/

/-- An upload at rest: what was written has arrived, and the end if it was declared. -/
theorem Upload.UploadInvariant.arrived {payloads : List Bytes} {m : Nat} {u : Upload}
    (hfits : Fits (serverFormat m) payloads) (h : u.UploadInvariant payloads m)
    (htodo : u.todo = []) (hstrand : u.client.strand = [])
    (hidle : u.deferred = true ∨ u.eof = true) (hwire : u.wire = [])
    (hclosed : u.eof = true → u.halfClosed = true) :
    Arrived u.server.readerImpl.queue payloads (if u.doneIssued then some .eos else none)
      u.results := by
  obtain ⟨⟨w, sent, queued, doneQueued, hs⟩, hr⟩ := h
  obtain ⟨received, delivered, hemit, hrec, hcons⟩ := hr.received
  have hempty : Upload.strandOf queued doneQueued = [] := hs.client.strand.symm.trans hstrand
  obtain ⟨rfl, rfl⟩ : queued = [] ∧ doneQueued = false := by
    cases queued with
    | cons p ps => cases hempty
    | nil =>
        cases doneQueued with
        | true => cases hempty
        | false => exact ⟨rfl, rfl⟩
  -- a generator that is deferred or has ended has nothing left to emit
  have hpending : w.pending = [] :=
    hidle.elim (fun hd => (hs.deferral hd).1) fun he => (hs.eof he).1
  have hunsent := (Outbox.unsent_eq_nil hs.wellFormed).2 hpending
  have hall : received ++ [] = streamOf payloads := by
    have hstream := hs.stream
    rw [hunsent, htodo, hemit, hwire] at hstream
    simpa [streamOf] using hstream
  have hdelivered := (hrec.delivered hfits hall).2 rfl
  refine ⟨hdelivered ▸ hcons, ?_, hr.awake⟩
  have hissued : u.doneIssued = w.writesDone := by rw [hs.issued, Bool.false_or]
  have hhalf : u.halfClosed = w.writesDone := by
    cases hd : w.writesDone with
    | true =>
        have heof := hidle.resolve_left fun hdef =>
          absurd (hd.symm.trans (hs.deferral hdef).2) (by simp)
        exact hclosed heof
    | false =>
        cases hh : u.halfClosed with
        | false => rfl
        | true => exact absurd (hd.symm.trans (hs.eof (hr.closed hh).1).2) (by simp)
  rw [hr.ending, hhalf, hissued]

/-! ## The request side -/

/-- The request side of a call: the client, the messages the caller has written and whether it has
declared their end, the direction of the connection, whether the half-close has arrived, the server,
and the results of the handler's reads. -/
structure RequestSide where
  client : StreamingCall
  written : List Bytes
  doneIssued : Bool
  up : Wire
  halfClosed : Bool
  server : UploadServer
  results : List PopResult

namespace RequestSide

/-- The side as an upload. -/
def toUpload (x : RequestSide) : Upload where
  todo := []
  doneIssued := x.doneIssued
  client := ownStream x.client
  deferred := x.up.deferred
  eof := x.up.eof
  emitted := x.up.emitted
  wire := x.up.inFlight
  halfClosed := x.halfClosed
  server := x.server
  results := x.results

/-- What holds of a request side between two events. -/
def Sound (m : Nat) (x : RequestSide) : Prop := x.toUpload.UploadInvariant x.written m

/-- The messages keep the limits of the request. -/
def Small (m : Nat) (x : RequestSide) : Prop := ∀ p ∈ x.written, p.length ≤ m ∧ p.length < 2 ^ 32

/-- An upper bound on the events of the side that are still to come. -/
def remaining (x : RequestSide) : Nat := x.toUpload.remaining

section Events

variable {m : Nat} {z : Zlib} {x : RequestSide}

theorem Small.lt (h : x.Small m) : ∀ p ∈ x.written, p.length < 2 ^ 32 := fun p hp => (h p hp).2

theorem Small.fits (h : x.Small m) : Fits (serverFormat m) x.written :=
  fun p hp => messageFrame_serverFormat (h p hp).1 (h p hp).2

/-- A step of the upload is one of the side. -/
theorem Sound.step (hx : x.Sound m) (hs : x.Small m) {e : UploadEvent} {u : Upload}
    (h : Upload.step z x.toUpload e = some u) : u.UploadInvariant x.written m :=
  Upload.uploadInvariant_step hs.lt hs.fits hx h

theorem Sound.less (hx : x.Sound m) (hs : x.Small m) {e : UploadEvent} {u : Upload}
    (he : e ≠ .read) (h : Upload.step z x.toUpload e = some u) : u.remaining < x.remaining :=
  Upload.remaining_decreases hs.lt hx he h

/-! ### The caller's end -/

/-- The caller writes a message. -/
theorem Sound.write {p : Bytes} {c : StreamingCall} (hx : x.Sound m)
    (hs : Small m { x with written := x.written ++ [p] }) (hopen : x.doneIssued = false)
    (hc : x.client.step (.write p) = some c) :
    Sound m { x with written := x.written ++ [p], client := c } := by
  refine Upload.uploadInvariant_step (z := Zlib.none) (e := .write) hs.lt hs.fits
    (hx.extend hopen [p]) ?_
  simp only [Upload.step, toUpload, List.nil_append, ownStream_step rfl hc, Option.map_some]

/-- The caller declares the end. -/
theorem Sound.writesDone {c : StreamingCall} (hx : x.Sound m) (hs : x.Small m)
    (hopen : x.doneIssued = false) (hc : x.client.step .writesDone = some c) :
    Sound m { x with doneIssued := true, client := c } := by
  refine hx.step (z := Zlib.none) (e := .writesDone) hs ?_
  simp [Upload.step, toUpload, hopen, ownStream_step rfl hc]

/-- The session polls the caller's generator. -/
theorem Sound.poll {len : Nat} {w : RawClientWriterImpl} {c : StreamingCall} (hx : x.Sound m)
    (hs : x.Small m) (hpoll : x.up.canPoll len = true) (hw : x.client.call.writer = some w)
    (hc : x.client.step (.poll len) = some c) :
    Sound m { x with up := x.up.take (w.clientWriterGenerator len).2, client := c } ∧
      remaining { x with up := x.up.take (w.clientWriterGenerator len).2, client := c } <
        x.remaining := by
  have hw' : (ownStream x.client).call.writer = some w := hw
  have hup : Upload.step Zlib.none x.toUpload (.poll len) = some (toUpload
      { x with up := x.up.take (w.clientWriterGenerator len).2, client := c }) := by
    simp only [Upload.step, toUpload, hw', ownStream_step rfl hc, Option.bind_some,
      Option.map_some]
    refine (if_pos hpoll).trans (congrArg some ?_)
    cases (w.clientWriterGenerator len).2 <;> rfl
  exact ⟨hx.step hs hup, hx.less hs (by simp) hup⟩

/-- An event of the response at the client. -/
theorem Sound.keeps {c : StreamingCall} (hx : x.Sound m) (hk : Keeps x.client c) :
    Sound m { x with client := c } ∧ remaining { x with client := c } = x.remaining :=
  ⟨hk.sending rfl hx, hk.remaining (u := x.toUpload) rfl hx⟩

/-- A closure runs on the strand. -/
theorem Sound.runStrand {c : StreamingCall} (hx : x.Sound m) (hs : x.Small m)
    (htasks : ∀ t ∈ x.client.strand, isDownloadTask t = true ∨ isUploadTask t = true)
    (hc : x.client.step .runStrand = some c) :
    Sound m { x with client := c, up := x.up.resume (resumed x.client c) } ∧
      remaining { x with client := c, up := x.up.resume (resumed x.client c) } ≤ x.remaining := by
  cases hstrand : x.client.strand with
  | nil => simp [StreamingCall.step, hstrand] at hc
  | cons t rest =>
      simp only [StreamingCall.step, hstrand, Option.some.injEq] at hc
      subst hc
      rcases htasks t (hstrand ▸ List.mem_cons_self) with ht | ht
      · -- a closure of the response: the caller's own stream goes on as before
        obtain ⟨hsound, hsame⟩ := hx.keeps (keeps_runTask hstrand ht)
        rw [resumed_runTask ht, Wire.resume_false]
        exact ⟨hsound, hsame.le⟩
      · -- a closure of the caller's own stream
        have hup := congrArg (Option.map fun c => { x.toUpload with
          client := c
          deferred := x.up.deferred && !resumed (ownStream x.client) c })
          (ownStream_runStrand hstrand ht)
        exact ⟨hx.step (z := Zlib.none) (e := .runStrand) hs hup,
          (hx.less (z := Zlib.none) (e := .runStrand) hs (by simp) hup).le⟩

/-! ### The server's end -/

/-- The chunk in flight parses. -/
theorem Sound.parses (hx : x.Sound m) (hs : x.Small m) (n : Nat) :
    (x.server.parser.feed (x.up.inFlight.take n)).status = Status.okStatus := by
  obtain ⟨⟨w, sent, queued, doneQueued, hsend⟩, hrecv⟩ := hx
  obtain ⟨received, delivered, hemit, hrec, _⟩ := hrecv.received
  have hstream : received ++ x.up.inFlight.take n ++
      (x.up.inFlight.drop n ++ (w.outbox.unsent ++ streamOf (queued ++ x.toUpload.todo))) =
        streamOf x.written := by
    rw [← hsend.stream, hemit]
    simp only [toUpload, List.append_assoc]
    rw [← List.append_assoc (x.up.inFlight.take n), List.take_append_drop]
  exact (hrec.feed hs.fits (fun got hgot => StreamingFrameParser.feed_agrees hgot _) hstream).1

/-- A chunk of the request arrives. -/
theorem Sound.deliver {n : Nat} (z : Zlib) (hx : x.Sound m) (hs : x.Small m)
    (hg : (decide (0 < n) && decide (n ≤ x.up.inFlight.length) && !x.halfClosed) = true) :
    Sound m { x with
        up := x.up.deliver n
        server := x.server.onData z (x.up.inFlight.take n) } ∧
      remaining { x with
        up := x.up.deliver n
        server := x.server.onData z (x.up.inFlight.take n) } < x.remaining := by
  have hup : Upload.step z x.toUpload (.deliver n) = some (toUpload { x with
      up := x.up.deliver n
      server := x.server.onData z (x.up.inFlight.take n) }) := if_pos hg
  exact ⟨hx.step hs hup, hx.less hs (by simp) hup⟩

/-- The half-close arrives. -/
theorem Sound.halfClose (z : Zlib) (hx : x.Sound m) (hs : x.Small m)
    (hg : (x.up.eof && x.up.inFlight.isEmpty && !x.halfClosed) = true) :
    Sound m { x with halfClosed := true, server := x.server.onData z [] } ∧
      remaining { x with halfClosed := true, server := x.server.onData z [] } < x.remaining := by
  have hup : Upload.step z x.toUpload .halfClose = some (toUpload { x with
      halfClosed := true
      server := x.server.onData z [] }) := if_pos hg
  exact ⟨hx.step hs hup, hx.less hs (by simp) hup⟩

/-- The handler reads. -/
theorem Sound.read (hx : x.Sound m) (hs : x.Small m)
    (hpop : x.server.readerImpl.queue.canPop = true) :
    Sound m { x with
      server := x.server.setReader x.server.readerImpl.read.1
      results := x.results ++ x.server.readerImpl.read.2.toList } :=
  hx.step (z := Zlib.none) (e := .read) hs (if_pos hpop)

/-- The server goes on with another state and the same reader. -/
theorem Sound.setServer (hx : x.Sound m) {s : UploadServer} (hp : s.parser = x.server.parser)
    (hr : s.readerImpl = x.server.readerImpl) (hl : s.isListening = true) :
    Sound m { x with server := s } := by
  obtain ⟨⟨w, sent, queued, doneQueued, hsend⟩, hrecv⟩ := hx
  obtain ⟨received, delivered, hemit, hrec, hcons⟩ := hrecv.received
  exact ⟨⟨w, sent, queued, doneQueued, hsend.congr rfl rfl rfl rfl rfl rfl⟩,
    ⟨⟨received, delivered, hemit, hp.symm ▸ hrec, hr.symm ▸ hcons⟩, hl, hr.symm ▸ hrecv.ending,
      hr.symm ▸ hrecv.awake, hrecv.closed⟩⟩

end Events

/-! ## What the handler may rely on -/

/-- What the handler reads, in every state: a prefix of what the caller has written, and the end
only once the caller has declared it. -/
theorem Sound.reads {m : Nat} {x : RequestSide} (hx : x.Sound m) (hs : x.Small m) :
    x.results <+: x.written.map .message ++
      if x.doneIssued then List.replicate x.results.length .eos else [] := by
  cases hd : x.doneIssued with
  | true => exact (hx.roundTrip (z := Zlib.none) hs.lt hs.fits).results
  | false =>
      have hopen : x.toUpload.halfClosed = false := by
        cases hh : x.toUpload.halfClosed with
        | false => rfl
        | true => exact absurd (hd.symm.trans (issued_of_halfClosed hx hh)) (by simp)
      have hread : x.results <+: x.written.map .message := reads_open hs.fits hx hopen
      simpa using hread

/-- No event of the request is left: the strand is empty, the generator waits or has ended, and the
bytes and the half-close have arrived. -/
structure Idle (x : RequestSide) : Prop where
  strand : x.client.strand = []
  generator : x.up.canPoll 1 = true → x.client.step (.poll 1) = none
  bytes : x.up.inFlight ≠ [] → x.halfClosed = true
  halfClose : x.up.eof = true → x.up.inFlight = [] → x.halfClosed = true

/-- **At rest everything has arrived**: the messages, and the end if the caller has declared it. -/
theorem Sound.settled {m : Nat} {x : RequestSide} (hx : x.Sound m) (hs : x.Small m)
    (hidle : x.Idle) :
    Arrived x.server.readerImpl.queue x.written (if x.doneIssued then some .eos else none)
      x.results := by
  obtain ⟨⟨w, sent, queued, doneQueued, hsend⟩, hrecv⟩ := id hx
  have hpoll : x.up.canPoll 1 = false := by
    cases hc : x.up.canPoll 1 with
    | false => rfl
    | true =>
        obtain ⟨c, hstep, _⟩ := hsend.client.poll 1
        have hnone := hidle.generator hc
        have hopen : x.client.isOpen = true := hsend.client.isOpen
        have hwriter : x.client.call.writer = some w := hsend.client.writer
        simp [StreamingCall.step, hopen, hwriter] at hnone
  have hwire : x.up.inFlight = [] := by
    by_contra hne
    exact hne (hrecv.closed (hidle.bytes hne)).2
  exact hx.arrived hs.fits rfl (by simp [toUpload, ownStream, hidle.strand])
    (Wire.not_canPoll hpoll) hwire fun heof => hidle.halfClose heof hwire

/-! ## The start -/

/-- The side of a call whose stream is accepted. -/
def start (kind : CallKind) (ctx : Option ClientContext) (id : StreamId) (server : UploadServer) :
    RequestSide where
  client := (StreamingCall.new (kind.callState ctx)).submit (.accepted id)
  written := []
  doneIssued := false
  up := .idle
  halfClosed := false
  server := server
  results := []

theorem sound_start {kind : CallKind} (hkind : kind ≠ .serverStreaming)
    (ctx : Option ClientContext) (id : StreamId) (m maxMetadataSize maxResponseSize : Nat)
    (peerIdentity : Bytes) :
    (start kind ctx id (.new kind m maxMetadataSize maxResponseSize peerIdentity)).Sound m := by
  have hup := Upload.uploadInvariant_start hkind ctx id [] m maxMetadataSize maxResponseSize
    peerIdentity
  cases kind with
  | serverStreaming => exact absurd rfl hkind
  | clientStreaming | bidi => exact hup

end RequestSide

end Rpcpio.Stream
