import Rpcpio.Server.FramingErrors
import Rpcpio.Stream.Download
import Rpcpio.Stream.Upload

/-!
# What the stream receivers hand over

The four receivers of a message stream, on any bytes in any chunks: the server's `OnData` of a
client-streaming and of a bidirectional call, and the data closures of the streaming client calls.
`UploadServer.hasRead_receive` and `hasRead_receiveData` say that the chunks do not matter: what is
handed over are the payloads of the frames that the format reads, and an error once it rejects a
header.
-/

set_option autoImplicit false

namespace Rpcpio.Stream

open Rpcpio.Library Rpcpio.Protocol Rpcpio.Client Rpcpio.Server

/-- The payloads of frames. -/
def payloadsOf (fs : List (LengthPrefix.Frame UInt8)) : List Bytes :=
  fs.map LengthPrefix.Frame.payload

/-- The queue of a receiver that read `bytes` in the format `F`. -/
def Delivers (F : LengthPrefix UInt8 Status) (bytes : Bytes) (q : StreamMessageQueue) : Prop :=
  match F.scan (.pending []) bytes with
  | (.pending _, fs) => q.buffer = payloadsOf fs ∧ q.error = none
  | (.rejected _, fs) => payloadsOf fs <+: q.buffer ∧ ∃ s, q.error = some s ∧ s.isOk = false

/-! ## The server -/

namespace UploadServer

/-- `Start`, and whether it registers `on_data`. -/
def start (z : Zlib) (req : Request) : UploadServer → UploadServer × Bool
  | .clientStreaming c => (.clientStreaming (c.start z req).1, (c.start z req).2.2)
  | .bidi c => (.bidi (c.start z req).1, (c.start z req).2.2)

/-- The server after chunks of request data. -/
def receive (z : Zlib) (s : UploadServer) (chunks : List Bytes) : UploadServer :=
  chunks.foldl (fun s chunk => s.onData z chunk) s

/-- The server has read `bytes`: its queue, and how it goes on. A client-streaming call is over once
a header is rejected. -/
def HasRead (m : Nat) (bytes : Bytes) (s : UploadServer) : Prop :=
  Delivers (serverFormat m) bytes s.readerImpl.queue ∧
    match ((serverFormat m).scan (.pending []) bytes).1 with
    | .pending got => StreamingFrameParser.Represents m s.parser got ∧ s.isListening = true
    | .rejected _ =>
        match s with
        | .clientStreaming c => c.responded = true
        | .bidi _ => True

/-- `Start` leaves the parser and the queue as they were. -/
theorem hasRead_start {z : Zlib} {kind : CallKind} {m maxMetadataSize maxResponseSize : Nat}
    {peerIdentity : Bytes} {req : Request}
    (h : ((new kind m maxMetadataSize maxResponseSize peerIdentity).start z req).2 = true) :
    HasRead m [] ((new kind m maxMetadataSize maxResponseSize peerIdentity).start z req).1 := by
  have hbidi : HasRead m [] (start z req
      (.bidi (.new m maxMetadataSize maxResponseSize peerIdentity))).1 := by
    have hsame := BidiStreamingCallState.sameReader_start z
      (.new m maxMetadataSize maxResponseSize peerIdentity) req
    refine ⟨⟨hsame.buffer, ?_⟩, ?_, rfl⟩
    · simp only [start, readerImpl, BidiStreamingCallState.start]
      split
      · simp only [BidiStreamingCallState.sendError]
        split <;> rfl
      · rfl
    · simp only [start, parser]
      rw [hsame.parser]
      exact StreamingFrameParser.new_represents m
  cases kind with
  | clientStreaming =>
      simp only [start, new, ClientStreamingCallState.start] at h ⊢
      split at h
      · cases h
      · rename_i hok
        rw [if_neg hok]
        exact ⟨⟨rfl, rfl⟩, StreamingFrameParser.new_represents m, rfl⟩
  | serverStreaming => exact hbidi
  | bidi => exact hbidi

/-- What `OnData` of a client-streaming call does before the call is answered. -/
theorem clientStreaming_onData {z : Zlib} {c : ClientStreamingCallState} (chunk : Bytes)
    (hresp : c.responded = false) :
    (c.onData z chunk).1.parser = (c.parser.feed chunk).parser ∧
      (c.onData z chunk).1.readerImpl.queue.buffer =
        c.readerImpl.queue.buffer ++ (c.parser.feed chunk).messages ∧
      (c.onData z chunk).1.readerImpl.queue.error =
        (if (c.parser.feed chunk).status.isOk then c.readerImpl.queue.error
          else some (c.parser.feed chunk).status) ∧
      (c.onData z chunk).1.responded = !(c.parser.feed chunk).status.isOk := by
  simp only [ClientStreamingCallState.onData]
  rw [if_neg (by simp [hresp])]
  split
  · rename_i hemp
    obtain rfl := List.isEmpty_iff.1 hemp
    refine ⟨rfl, by simp [StreamingFrameParser.feed_nil], ?_, hresp⟩
    rw [StreamingFrameParser.feed_nil, if_pos Status.isOk_okStatus]
    exact StreamMessageQueue.setEos_error _
  · obtain ⟨hbuf, herr⟩ := pushAll_queue c.readerImpl (c.parser.feed chunk).messages
    cases hok : (c.parser.feed chunk).status.isOk with
    | true =>
        simp only [if_true]
        exact ⟨trivial, hbuf, herr, hresp⟩
    | false =>
        simp only [Bool.false_eq_true, if_false, ClientStreamingCallState.sendError,
          ClientStreamingCallState.setError, hresp, StreamMessageQueue.setError_error,
          StreamMessageQueue.setError_buffer]
        exact ⟨trivial, hbuf, trivial, rfl⟩

/-- **A chunk of request data is read in the server's format.** -/
theorem HasRead.onData {z : Zlib} {m : Nat} {bytes : Bytes} {s : UploadServer}
    (h : HasRead m bytes s) (chunk : Bytes) : HasRead m (bytes ++ chunk) (s.onData z chunk) := by
  obtain ⟨hqueue, hstate⟩ := h
  simp only [HasRead, Delivers]
  unfold Delivers at hqueue
  rw [LengthPrefix.scan_append]
  cases hscan : (serverFormat m).scan (.pending []) bytes with
  | mk state fs =>
      rw [hscan] at hqueue hstate
      cases state with
      | rejected e =>
          simp only [LengthPrefix.scan_rejected, List.append_nil]
          obtain ⟨hpre, e', herr, hbad⟩ := hqueue
          cases s with
          | clientStreaming c =>
              -- the call is answered, and ignores the chunk
              have hsame : (c.onData z chunk).1 = c := by
                simp only [ClientStreamingCallState.onData]
                rw [if_pos hstate]
              simp only [UploadServer.onData, readerImpl, hsame]
              exact ⟨⟨hpre, e', herr, hbad⟩, hstate⟩
          | bidi c =>
              obtain ⟨_, hbuf, herr'⟩ := c.onData_reader chunk
              refine ⟨⟨?_, ?_⟩, trivial⟩
              · simp only [UploadServer.onData, readerImpl, hbuf]
                exact hpre.trans (List.prefix_append _ _)
              · simp only [UploadServer.onData, readerImpl, herr']
                cases hok : (c.parser.feed chunk).status.isOk with
                | true => exact ⟨e', herr, hbad⟩
                | false => exact ⟨_, rfl, hok⟩
      | pending got =>
          obtain ⟨hbuf, herr⟩ := hqueue
          obtain ⟨hrep, hlisten⟩ := hstate
          have hagree := StreamingFrameParser.feed_agrees hrep chunk
          -- the two call states read a chunk alike
          have hboth : (s.onData z chunk).parser = (s.parser.feed chunk).parser ∧
              (s.onData z chunk).readerImpl.queue.buffer =
                s.readerImpl.queue.buffer ++ (s.parser.feed chunk).messages ∧
              (s.onData z chunk).readerImpl.queue.error =
                (if (s.parser.feed chunk).status.isOk then s.readerImpl.queue.error
                  else some (s.parser.feed chunk).status) := by
            cases s with
            | clientStreaming c =>
                have hresp : c.responded = false := by simpa [isListening] using hlisten
                obtain ⟨hp, hb, he, _⟩ := clientStreaming_onData (z := z) chunk hresp
                exact ⟨hp, hb, he⟩
            | bidi c => exact c.onData_reader chunk
          obtain ⟨hp, hb, he⟩ := hboth
          obtain ⟨hmsgs, hout⟩ := hagree
          cases hchunk : ((serverFormat m).scan (.pending got) chunk).1 with
          | pending rest =>
              rw [hchunk] at hout
              refine ⟨⟨?_, ?_⟩, ?_, ?_⟩
              · rw [hb, hbuf, hmsgs, payloadsOf, payloadsOf, List.map_append]
              · rw [he, hout.2, if_pos Status.isOk_okStatus, herr]
              · rw [hp]
                exact hout.1
              · cases s with
                | bidi c => rfl
                | clientStreaming c =>
                    have hresp : c.responded = false := by simpa [isListening] using hlisten
                    have hst : (c.parser.feed chunk).status = Status.okStatus := hout.2
                    simp [UploadServer.onData, isListening,
                      (clientStreaming_onData (z := z) chunk hresp).2.2.2, hst]
          | rejected e =>
              rw [hchunk] at hout
              have hbad : (s.parser.feed chunk).status.isOk = false := by rw [hout.1, hout.2]
              refine ⟨⟨?_, _, by rw [he, hbad, if_neg Bool.false_ne_true], hbad⟩, ?_⟩
              · have hbuffer : (s.onData z chunk).readerImpl.queue.buffer =
                    payloadsOf (fs ++ ((serverFormat m).scan (.pending got) chunk).2) := by
                  rw [hb, hbuf, hmsgs, payloadsOf, payloadsOf, List.map_append]
                exact hbuffer ▸ List.prefix_rfl
              · cases s with
                | bidi c => trivial
                | clientStreaming c =>
                    have hresp : c.responded = false := by simpa [isListening] using hlisten
                    have hst : (c.parser.feed chunk).status.isOk = false := hbad
                    simp [UploadServer.onData,
                      (clientStreaming_onData (z := z) chunk hresp).2.2.2, hst]

/-- The chunks of the request data do not matter. -/
theorem hasRead_receive {z : Zlib} {m : Nat} {bytes : Bytes} {s : UploadServer}
    (h : HasRead m bytes s) (chunks : List Bytes) :
    HasRead m (bytes ++ chunks.flatten) (s.receive z chunks) := by
  induction chunks generalizing bytes s with
  | nil => simpa [receive] using h
  | cons chunk chunks ih =>
      have hnext := ih (h.onData (z := z) chunk)
      rwa [List.flatten_cons, ← List.append_assoc]

end UploadServer

/-! ## The client -/

/-- A call and the closures it posted, after a data closure with the limit `m`. -/
def receiveChunk (m : Nat) (r : StreamingCallState × List IocTask) (chunk : Bytes) :
    StreamingCallState × List IocTask :=
  ((r.1.onData m chunk).1, r.2 ++ (r.1.onData m chunk).2)

/-- The call after the data closures of chunks of response data. -/
def receiveData (m : Nat) (c : StreamingCallState) (chunks : List Bytes) :
    StreamingCallState × List IocTask :=
  chunks.foldl (receiveChunk m) (c, [])

/-- Messages go to the handles, whatever the other members are. -/
theorem foldl_deliver_handles {c d : StreamingCallState} (hr : c.reader = d.reader)
    (hw : c.writer = d.writer) (msgs : List Bytes) :
    (msgs.foldl StreamingCallState.deliver c).reader =
        (msgs.foldl StreamingCallState.deliver d).reader ∧
      (msgs.foldl StreamingCallState.deliver c).writer =
        (msgs.foldl StreamingCallState.deliver d).writer := by
  induction msgs generalizing c d with
  | nil => exact ⟨hr, hw⟩
  | cons msg msgs ih =>
      apply ih
      · simp only [StreamingCallState.deliver]
        rw [hr]
        split <;> simp
      · simp only [StreamingCallState.deliver]
        rw [hr]
        split <;> simp [hw]

theorem foldl_deliver_flags (c : StreamingCallState) (msgs : List Bytes) :
    (msgs.foldl StreamingCallState.deliver c).closed = c.closed ∧
      (msgs.foldl StreamingCallState.deliver c).lpm = c.lpm := by
  constructor
  · exact StreamingCallState.foldl_deliver_frame StreamingCallState.closed_deliver c msgs
  · exact StreamingCallState.foldl_deliver_frame StreamingCallState.lpm_deliver c msgs

/-- A call with a writer alone keeps the last message. -/
theorem foldl_deliver_writer {c : StreamingCallState} {w : RawClientWriterImpl}
    (hr : c.reader = none) (hw : c.writer = some w) (msgs : List Bytes) :
    (msgs.foldl StreamingCallState.deliver c).reader = none ∧
      (msgs.foldl StreamingCallState.deliver c).writer =
        some { w with
          responseBytes := msgs.getLastD w.responseBytes
          hasResponse := w.hasResponse || !msgs.isEmpty } := by
  induction msgs generalizing c w with
  | nil => simp [hr, hw]
  | cons msg msgs ih =>
      have hstep : (c.deliver msg).reader = none ∧
          (c.deliver msg).writer = some { w with responseBytes := msg, hasResponse := true } := by
        simp [StreamingCallState.deliver, hr, hw]
      obtain ⟨hnone, hlast⟩ := ih hstep.1 hstep.2
      refine ⟨hnone, ?_⟩
      rw [List.foldl_cons, hlast]
      simp only [List.getLastD_cons, Bool.true_or, List.isEmpty_cons, Bool.not_false, Bool.or_true]

/-- The client rejects a header for its length only. -/
theorem scan_client_code {m : Nat} {bytes : Bytes} {e : Status}
    {fs : List (LengthPrefix.Frame UInt8)}
    (h : (clientFormat m).scan (.pending []) bytes = (.rejected e, fs)) :
    e.code = .resourceExhausted := by
  have hsound := LengthPrefix.scan_sound (F := clientFormat m) (l := bytes)
    LengthPrefix.unfinished_nil
  rw [h] at hsound
  obtain ⟨rest, _, _, hann, _⟩ := hsound
  simp only [clientFormat] at hann
  split at hann
  · cases hann
    rfl
  · cases hann

/-- The call `c` has read `bytes` since it was `c₀`, and posted closures. -/
structure HasRead (m : Nat) (c₀ : StreamingCallState) (bytes : Bytes)
    (r : StreamingCallState × List IocTask) : Prop where
  reader : r.1.reader = ((payloadsOf ((clientFormat m).scan (.pending []) bytes).2).foldl
    StreamingCallState.deliver c₀).reader
  writer : r.1.writer = ((payloadsOf ((clientFormat m).scan (.pending []) bytes).2).foldl
    StreamingCallState.deliver c₀).writer
  state : match ((clientFormat m).scan (.pending []) bytes).1 with
    | .pending got => r.1.closed = false ∧ LpmReader.Represents m r.1.lpm got ∧ r.2 = []
    | .rejected e => r.1.closed = true ∧ r.2 = [.failed e] ∧ e.isOk = false

theorem hasRead_new {m : Nat} {c : StreamingCallState} (hc : c.closed = false)
    (hl : c.lpm = LpmReader.new) : HasRead m c [] (c, []) :=
  ⟨rfl, rfl, hc, by rw [hl]; exact LpmReader.new_represents m, rfl⟩

/-- **A chunk of response data is read in the client's format.** -/
theorem HasRead.receiveChunk {m : Nat} {c₀ : StreamingCallState} {bytes : Bytes}
    {r : StreamingCallState × List IocTask} (h : HasRead m c₀ bytes r) (chunk : Bytes) :
    HasRead m c₀ (bytes ++ chunk) (receiveChunk m r chunk) := by
  obtain ⟨c, ts⟩ := r
  obtain ⟨hreader, hwriter, hstate⟩ := h
  dsimp only at hreader hwriter hstate
  cases hscan : (clientFormat m).scan (.pending []) bytes with
  | mk state fs =>
      rw [hscan] at hreader hwriter hstate
      cases state with
      | rejected e =>
          obtain ⟨hclosed, hts, hbad⟩ := hstate
          -- after a rejected message the call is closed and reads no more
          have hsame : Stream.receiveChunk m (c, ts) chunk = (c, ts) := by
            simp only [Stream.receiveChunk, StreamingCallState.onData]
            rw [if_pos hclosed]
            simp
          rw [hsame]
          refine ⟨?_, ?_, ?_⟩ <;> rw [LengthPrefix.scan_append, hscan]
          · simpa using hreader
          · simpa using hwriter
          · simpa using ⟨hclosed, hts, hbad⟩
      | pending got =>
          obtain ⟨hclosed, hrep, hts⟩ := hstate
          obtain ⟨hmsgs, hout⟩ := LpmReader.feed_agrees hrep chunk
          -- the parser's messages are delivered one by one, then its status closes the call
          have hdata : (c.onData m chunk).1.reader = ((c.lpm.feed m chunk).messages.foldl
                StreamingCallState.deliver c).reader ∧
              (c.onData m chunk).1.writer = ((c.lpm.feed m chunk).messages.foldl
                StreamingCallState.deliver c).writer ∧
              (c.onData m chunk).1.lpm = (c.lpm.feed m chunk).parser ∧
              (c.onData m chunk).1.closed = !(c.lpm.feed m chunk).status.isOk ∧
              (c.onData m chunk).2 = if (c.lpm.feed m chunk).status.isOk then []
                else [.failed (c.lpm.feed m chunk).status] := by
            obtain ⟨hr, hw⟩ := foldl_deliver_handles (c := { c with
              lpm := (c.lpm.feed m chunk).parser }) (d := c) rfl rfl (c.lpm.feed m chunk).messages
            obtain ⟨hc, hl⟩ := foldl_deliver_flags { c with lpm := (c.lpm.feed m chunk).parser }
              (c.lpm.feed m chunk).messages
            have hopen := hc.trans hclosed
            simp only [StreamingCallState.onData]
            rw [if_neg (by simp [hclosed])]
            cases hok : (c.lpm.feed m chunk).status.isOk with
            | true =>
                simp only [if_true]
                exact ⟨hr, hw, hl, hopen, trivial⟩
            | false =>
                simp only [Bool.false_eq_true, if_false, StreamingCallState.fail]
                rw [if_neg (by simp [hopen])]
                exact ⟨hr, hw, hl, rfl, rfl⟩
          obtain ⟨hr, hw, hl, hc, ht⟩ := hdata
          have hmore : ∀ gs, gs = ((clientFormat m).scan (.pending got) chunk).2 →
              payloadsOf (fs ++ gs) = payloadsOf fs ++ (c.lpm.feed m chunk).messages := by
            rintro gs rfl
            rw [payloadsOf, payloadsOf, List.map_append, hmsgs]
          obtain ⟨hr', hw'⟩ := foldl_deliver_handles hreader hwriter (c.lpm.feed m chunk).messages
          refine ⟨?_, ?_, ?_⟩
          · rw [LengthPrefix.scan_append, hscan, hmore _ rfl, List.foldl_append, ← hr']
            exact hr
          · rw [LengthPrefix.scan_append, hscan, hmore _ rfl, List.foldl_append, ← hw']
            exact hw
          -- the parser stands as the format's own scan does
          · rw [LengthPrefix.scan_append, hscan]
            cases hchunk : ((clientFormat m).scan (.pending got) chunk).1 with
            | pending rest =>
                rw [hchunk] at hout
                refine ⟨?_, ?_, ?_⟩
                · rw [show (Stream.receiveChunk m (c, ts) chunk).1.closed = _ from hc, hout.2]
                  rfl
                · rw [show (Stream.receiveChunk m (c, ts) chunk).1.lpm = _ from hl]
                  exact hout.1
                · rw [Stream.receiveChunk, ht, hout.2, hts]
                  rfl
            | rejected e =>
                rw [hchunk] at hout
                have hbad : (c.lpm.feed m chunk).status.isOk = false := by rw [hout.1, hout.2]
                refine ⟨?_, ?_, hout.2⟩
                · rw [show (Stream.receiveChunk m (c, ts) chunk).1.closed = _ from hc, hbad]
                  rfl
                · rw [Stream.receiveChunk, ht, hbad, if_neg Bool.false_ne_true, hts, hout.1]
                  rfl

/-- The chunks of the response data do not matter. -/
theorem hasRead_receiveData {m : Nat} {c : StreamingCallState} (hc : c.closed = false)
    (hl : c.lpm = LpmReader.new) (chunks : List Bytes) :
    HasRead m c chunks.flatten (receiveData m c chunks) := by
  have hfold : ∀ (cs : List Bytes) (bytes : Bytes) (r : StreamingCallState × List IocTask),
      HasRead m c bytes r → HasRead m c (bytes ++ cs.flatten) (cs.foldl (receiveChunk m) r) := by
    intro cs
    induction cs with
    | nil =>
        intro bytes r h
        simpa using h
    | cons chunk cs ih =>
        intro bytes r h
        have hnext := ih _ _ (h.receiveChunk chunk)
        rwa [List.flatten_cons, ← List.append_assoc]
  simpa [receiveData] using hfold chunks [] (c, []) (hasRead_new hc hl)

end Rpcpio.Stream
