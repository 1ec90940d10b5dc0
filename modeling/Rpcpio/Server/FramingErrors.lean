import Rpcpio.Protocol.StreamParsing
import Rpcpio.Server.BidiStreamingCallState

/-!
# Framing errors of a bidirectional call

`StreamingFrameParser` has no error state: after a rejected header it stands behind five header
bytes, ready for the payload the header announced (`Blocked`). `BidiStreamingCallState::OnData` goes
on feeding it. With a bad flag nothing is announced, so the next byte completes an empty message;
with an oversized length the parser buffers what comes until the announced length is there.
`framing_error_final` says when the error is final all the same.
-/

set_option autoImplicit false

namespace Rpcpio.Protocol

/-! ## The parser after a rejected header -/

/-- A call that goes on leaves a parser with `I`, and one that fails a parser and status with
`J`. -/
def FeedResult.Meets {π : Type} (I : π → Prop) (J : π → Status → Prop) (r : FeedResult π) : Prop :=
  if r.status.isOk then I r.parser else J r.parser r.status

/-- What every iteration does to `I` and `J`, the loop does. -/
theorem chunkLoop_meets {π : Type} {I : π → Prop} {J : π → Status → Prop}
    {iter : π → Bytes → FeedResult π × Bytes}
    (hiter : ∀ p chunk, I p → chunk ≠ [] → (iter p chunk).1.Meets I J) :
    ∀ (fuel : Nat) (p : π) (chunk : Bytes), I p → (chunkLoop iter fuel p chunk).Meets I J
  | 0, _, _, hp => hp
  | fuel + 1, p, chunk, hp => by
      by_cases hne : chunk = []
      · subst hne
        exact hp
      · have hemp : chunk.isEmpty = false := by simpa using hne
        have h := hiter p chunk hp hne
        unfold FeedResult.Meets at h
        cases hok : (iter p chunk).1.status.isOk with
        | true =>
            rw [hok, if_pos rfl] at h
            simp only [chunkLoop, hemp, hok, Bool.false_eq_true, if_false, if_true]
            exact chunkLoop_meets hiter fuel (iter p chunk).1.parser (iter p chunk).2 h
        | false =>
            rw [hok, if_neg Bool.false_ne_true] at h
            simp only [chunkLoop, hemp, hok, Bool.false_eq_true, if_false, FeedResult.Meets]
            exact h

namespace StreamingFrameParser

/-- Between chunks, as long as no header was rejected. -/
structure Clean (m : Nat) (p : StreamingFrameParser) : Prop where
  limit : p.maxMessageSize = m
  size : p.headerBuf.length = 5
  bytes : p.headerBytes ≤ 5
  header : p.headerBytes < 5 → p.payloadLen = 0 ∧ p.payload = []
  payload : p.headerBytes = 5 → p.payload.length < p.payloadLen ∧ p.payloadLen ≤ m

/-- Behind a complete header that announced `len` bytes, of which `held` have arrived. -/
structure Blocked (p : StreamingFrameParser) (len held : Nat) : Prop where
  bytes : p.headerBytes = 5
  announced : p.payloadLen = len
  buffered : p.payload.length = held
  fits : held ≤ len

/-- The bytes that may follow a header rejected with `s` without completing a message or filling the
buffer over the limit `m`: none after a bad flag. -/
def slack (m : Nat) (s : Status) : Nat :=
  match s.code with
  | .invalidArgument => 0
  | _ => m

/-- What a failed `Feed` leaves: an empty buffer behind a header that announces no byte, if the flag
was bad, and otherwise more bytes than the limit. -/
def Failed (m : Nat) (p : StreamingFrameParser) (s : Status) : Prop :=
  ∃ len, p.Blocked len 0 ∧ ((len = 0 ∧ slack m s = 0) ∨ (m < len ∧ slack m s = m))

theorem new_clean (m : Nat) : Clean m (new m) :=
  ⟨rfl, rfl, Nat.zero_le 5, fun _ => ⟨rfl, rfl⟩, fun h => by cases h⟩

theorem Clean.buffered {m : Nat} {p : StreamingFrameParser} (h : Clean m p) :
    p.payload.length ≤ m := by
  by_cases h5 : p.headerBytes = 5
  · have hp := h.payload h5
    omega
  · have hb := h.bytes
    rw [(h.header (by omega)).2]
    exact Nat.zero_le m

/-- The decision on a complete header keeps the parser clean, or blocks it. -/
theorem parseHeader_clean {m : Nat} {p : StreamingFrameParser} (hm : p.maxMessageSize = m)
    (hlen : p.headerBuf.length = 5) (h5 : p.headerBytes = 5)
    (hempty : p.payloadLen = 0 ∧ p.payload = []) :
    p.parseHeader.Meets (Clean m) (Failed m) := by
  subst hm
  simp only [parseHeader]
  by_cases hflag : p.headerBuf.getD 0 0 ≠ 0 ∧ p.headerBuf.getD 0 0 ≠ 1
  · simp only [if_pos hflag]
    exact ⟨0, ⟨h5, hempty.1, by rw [hempty.2]; rfl, Nat.le_refl 0⟩, Or.inl ⟨rfl, rfl⟩⟩
  · by_cases hmax : p.maxMessageSize < headerLength p.headerBuf
    · simp only [if_neg hflag, if_pos hmax]
      exact ⟨_, ⟨h5, rfl, by rw [hempty.2]; rfl, Nat.zero_le _⟩, Or.inr ⟨hmax, rfl⟩⟩
    · simp only [if_neg hflag, if_neg hmax]
      by_cases hzero : headerLength p.headerBuf = 0
      · simp only [if_pos hzero]
        exact ⟨rfl, hlen, Nat.zero_le 5, fun _ => ⟨hzero, rfl⟩, fun h => by cases h⟩
      · simp only [if_neg hzero]
        refine ⟨rfl, hlen, Nat.le_of_eq h5, fun h => ?_, fun _ => ?_⟩
        · exact absurd h5 (Nat.ne_of_lt h)
        · exact ⟨Nat.pos_of_ne_zero hzero, Nat.le_of_not_lt hmax⟩

/-- One iteration keeps the parser clean, or fails and leaves it blocked. -/
theorem feedIter_clean {m : Nat} (p : StreamingFrameParser) (chunk : Bytes) (h : Clean m p)
    (hne : chunk ≠ []) :
    (p.feedIter chunk).1.Meets (Clean m) (Failed m) := by
  simp only [feedIter]
  by_cases hb : p.headerBytes < 5
  · rw [if_pos hb, sizeSub_of_le (by omega)]
    obtain ⟨_, hle, _⟩ := take_block (5 - p.headerBytes) chunk (by omega) hne
    simp only [headerBlock]
    generalize chunk.take (min (5 - p.headerBytes) chunk.length) = bytes at hle
    have hsize := h.size
    have hcpy := (memcpy_spec p.headerBuf bytes p.headerBytes (by omega)).1
    by_cases h5 : p.headerBytes + bytes.length = 5
    · simp only [if_pos h5]
      exact parseHeader_clean h.limit (hcpy.trans h.size) h5 (h.header hb)
    · simp only [if_neg h5]
      refine ⟨h.limit, hcpy.trans h.size, ?_, fun _ => h.header hb, fun hx => absurd hx h5⟩
      show p.headerBytes + bytes.length ≤ 5
      omega
  · have hfive : p.headerBytes = 5 := Nat.le_antisymm h.bytes (Nat.le_of_not_lt hb)
    obtain ⟨hlt, hmax⟩ := h.payload hfive
    rw [if_neg hb, sizeSub_of_le (by omega)]
    obtain ⟨_, hle, _⟩ := take_block (p.payloadLen - p.payload.length) chunk (by omega) hne
    simp only [payloadBlock]
    generalize chunk.take (min (p.payloadLen - p.payload.length) chunk.length) = bytes at hle
    by_cases hfull : (p.payload ++ bytes).length = p.payloadLen
    · simp only [if_pos hfull]
      exact ⟨h.limit, h.size, Nat.zero_le 5, fun _ => ⟨rfl, rfl⟩, fun hx => by cases hx⟩
    · simp only [if_neg hfull]
      refine ⟨h.limit, h.size, h.bytes, fun hx => absurd hx hb, fun _ => ⟨?_, hmax⟩⟩
      show (p.payload ++ bytes).length < p.payloadLen
      rw [List.length_append] at hfull ⊢
      omega

/-- **A `Feed` that fails leaves the parser blocked**, one that does not keeps it clean. -/
theorem feed_clean {m : Nat} {p : StreamingFrameParser} (h : Clean m p) (chunk : Bytes) :
    (p.feed chunk).Meets (Clean m) (Failed m) :=
  chunkLoop_meets feedIter_clean _ p chunk h

/-- An empty chunk does nothing. -/
theorem feed_nil (p : StreamingFrameParser) : p.feed [] = ⟨p, [], Status.okStatus⟩ := rfl

/-- A blocked parser swallows bytes as long as the announced length is not there. -/
theorem Blocked.feed_short {p : StreamingFrameParser} {len held : Nat} (h : p.Blocked len held)
    {chunk : Bytes} (hlt : held + chunk.length < len) :
    (p.feed chunk).messages = [] ∧ (p.feed chunk).status = Status.okStatus ∧
      (p.feed chunk).parser.Blocked len (held + chunk.length) := by
  cases hc : chunk with
  | nil => exact ⟨rfl, rfl, h⟩
  | cons b rest =>
      rw [← hc]
      have hne : chunk ≠ [] := by simp [hc]
      have hbuf := h.buffered
      have hann := h.announced
      have hpos : 0 < chunk.length := List.length_pos_iff.2 hne
      obtain ⟨fuel, hfuel⟩ : ∃ fuel, 2 * chunk.length = fuel + 1 := ⟨2 * chunk.length - 1, by omega⟩
      have htake : min (sizeSub p.payloadLen p.payload.length) chunk.length = chunk.length := by
        rw [sizeSub_of_le (by omega)]
        omega
      have hopen : (p.payload ++ chunk).length ≠ p.payloadLen := by
        rw [List.length_append]
        omega
      have hiter : p.feedIter chunk =
          (⟨{ p with payload := p.payload ++ chunk }, [], Status.okStatus⟩, []) := by
        simp only [feedIter]
        rw [if_neg (by rw [h.bytes]; decide), htake]
        simp only [List.take_length, List.drop_length, payloadBlock, if_neg hopen]
      have hrest : ∀ q : StreamingFrameParser,
          chunkLoop feedIter fuel q [] = ⟨q, [], Status.okStatus⟩ := by
        intro q
        cases fuel <;> rfl
      have hfeed : p.feed chunk =
          ⟨{ p with payload := p.payload ++ chunk }, [], Status.okStatus⟩ := by
        simp [feed, hfuel, chunkLoop, hne, hiter, hrest]
      rw [hfeed]
      refine ⟨rfl, rfl, h.bytes, h.announced, ?_, by omega⟩
      show (p.payload ++ chunk).length = held + chunk.length
      rw [List.length_append, hbuf]

/-- Once it is there, a message is handed over. -/
theorem Blocked.feed_full {p : StreamingFrameParser} {len held : Nat} (h : p.Blocked len held)
    {chunk : Bytes} (hne : chunk ≠ []) (hle : len ≤ held + chunk.length) :
    (p.feed chunk).messages ≠ [] := by
  have hbuf := h.buffered
  have hann := h.announced
  have hfits := h.fits
  have hpos : 0 < chunk.length := List.length_pos_iff.2 hne
  obtain ⟨fuel, hfuel⟩ : ∃ fuel, 2 * chunk.length = fuel + 1 := ⟨2 * chunk.length - 1, by omega⟩
  have htake : min (sizeSub p.payloadLen p.payload.length) chunk.length = len - held := by
    rw [sizeSub_of_le (by omega)]
    omega
  have hfull : (p.payload ++ chunk.take (len - held)).length = p.payloadLen := by
    rw [List.length_append, List.length_take]
    omega
  have hiter : (p.feedIter chunk).1.messages = [p.payload ++ chunk.take (len - held)] ∧
      (p.feedIter chunk).1.status = Status.okStatus := by
    simp only [feedIter]
    rw [if_neg (by rw [h.bytes]; decide), htake]
    simp only [payloadBlock, if_pos hfull, and_self]
  simp [feed, hfuel, chunkLoop, hne, hiter.1, hiter.2]

end StreamingFrameParser

end Rpcpio.Protocol

namespace Rpcpio.Server

open Rpcpio.Library Rpcpio.Protocol

/-! ## What the members do to the reader -/

/-- Messages go to the back of the queue; its error stays. -/
theorem pushAll_queue (r : RawServerReaderImpl) (msgs : List Bytes) :
    (r.pushAll msgs).queue.buffer = r.queue.buffer ++ msgs ∧
      (r.pushAll msgs).queue.error = r.queue.error := by
  induction msgs generalizing r with
  | nil => exact ⟨(List.append_nil _).symm, rfl⟩
  | cons msg msgs ih =>
      obtain ⟨hb, he⟩ := ih ⟨r.queue.push msg⟩
      refine ⟨hb.trans ?_, he.trans (StreamMessageQueue.push_error _ _)⟩
      rw [StreamMessageQueue.push_buffer, List.append_assoc]
      rfl

namespace BidiStreamingCallState

/-- The parser and the queued messages are the same, and an error stays set. -/
structure SameReader (c c' : BidiStreamingCallState) : Prop where
  parser : c'.parser = c.parser
  buffer : c'.readerImpl.queue.buffer = c.readerImpl.queue.buffer
  error : c.readerImpl.queue.error.isSome = true → c'.readerImpl.queue.error.isSome = true

theorem SameReader.refl (c : BidiStreamingCallState) : SameReader c c := ⟨rfl, rfl, id⟩

theorem SameReader.trans {c d e : BidiStreamingCallState} (h : SameReader c d)
    (h' : SameReader d e) : SameReader c e :=
  ⟨h'.parser.trans h.parser, h'.buffer.trans h.buffer, fun hs => h'.error (h.error hs)⟩

theorem sameReader_setError (c : BidiStreamingCallState) (s : Status) :
    SameReader c (c.setError s) :=
  ⟨rfl, StreamMessageQueue.setError_buffer _ _, fun _ => by simp [setError]⟩

theorem sameReader_finishWriter (c : BidiStreamingCallState) (s : Status) :
    SameReader c (c.finishWriter s).1 := by
  simp only [finishWriter]
  split <;> exact ⟨rfl, rfl, id⟩

theorem finishWriter_reader (c : BidiStreamingCallState) (s : Status) :
    (c.finishWriter s).1.readerImpl = c.readerImpl := by
  simp only [finishWriter]
  split <;> rfl

theorem sameReader_perform (c : BidiStreamingCallState) (w : WriterCall) :
    SameReader c (c.perform w).1 := ⟨rfl, rfl, id⟩

theorem sameReader_triggerCancel (c : BidiStreamingCallState) (slot : List WriterCall) :
    SameReader c (c.triggerCancel slot).1 := ⟨rfl, rfl, id⟩

theorem sameReader_sendError (z : Zlib) (c : BidiStreamingCallState) (s : Status) :
    SameReader c (c.sendError z s).1 := by
  simp only [sendError]
  split <;> exact ⟨rfl, rfl, id⟩

theorem sameReader_start (z : Zlib) (c : BidiStreamingCallState) (req : Request) :
    SameReader c (c.start z req).1 := by
  unfold start
  simp only
  split
  · exact sameReader_sendError z c _
  · exact ⟨rfl, rfl, id⟩

theorem sameReader_onDeadline (c : BidiStreamingCallState) (slot : List WriterCall) :
    SameReader c (c.onDeadline slot).1 :=
  ((sameReader_triggerCancel c slot).trans (sameReader_setError _ _)).trans
    (sameReader_finishWriter _ _)

theorem sameReader_cancel (z : Zlib) (c : BidiStreamingCallState) (s : Status)
    (slot : List WriterCall) : SameReader c (c.cancel z s slot).1 := by
  simp only [cancel]
  split
  · exact .refl c
  · have h := (sameReader_triggerCancel c slot).trans (sameReader_setError _ s)
    simp only
    split
    · exact h.trans (sameReader_perform _ _)
    · exact h.trans (sameReader_sendError z _ s)

theorem sameReader_onClose (c : BidiStreamingCallState) (slot : List WriterCall) :
    SameReader c (c.onClose slot).1 := by
  unfold onClose
  split
  · exact .refl c
  · simp only
    split
    · exact ⟨rfl, rfl, id⟩
    · exact ⟨rfl, StreamMessageQueue.setError_buffer _ _, fun _ => by simp [setError]⟩

theorem sameReader_handlerReturned (c : BidiStreamingCallState) (status : Option Status) :
    SameReader c (c.handlerReturned status).1 :=
  SameReader.trans (d := { c with timer := c.timer.cancel }) ⟨rfl, rfl, id⟩
    (sameReader_finishWriter _ _)

/-- `OnData` feeds the parser, queues what it hands over, and sets the error of a failed `Feed`. -/
theorem onData_reader (c : BidiStreamingCallState) (chunk : Bytes) :
    (c.onData chunk).1.parser = (c.parser.feed chunk).parser ∧
      (c.onData chunk).1.readerImpl.queue.buffer =
        c.readerImpl.queue.buffer ++ (c.parser.feed chunk).messages ∧
      (c.onData chunk).1.readerImpl.queue.error =
        if (c.parser.feed chunk).status.isOk then c.readerImpl.queue.error
        else some (c.parser.feed chunk).status := by
  unfold onData
  split
  · rename_i hemp
    obtain rfl := List.isEmpty_iff.1 hemp
    refine ⟨rfl, by simp [StreamingFrameParser.feed_nil], ?_⟩
    rw [StreamingFrameParser.feed_nil, if_pos Status.isOk_okStatus]
    exact StreamMessageQueue.setEos_error _
  · obtain ⟨hbuf, herr⟩ := pushAll_queue c.readerImpl (c.parser.feed chunk).messages
    simp only
    split
    · exact ⟨rfl, hbuf, herr⟩
    · have hset := sameReader_finishWriter ({ c with
        parser := (c.parser.feed chunk).parser
        readerImpl := c.readerImpl.pushAll (c.parser.feed chunk).messages }.setError
          (c.parser.feed chunk).status) (c.parser.feed chunk).status
      refine ⟨hset.parser, ?_, ?_⟩
      · rw [hset.buffer, ← hbuf]
        exact StreamMessageQueue.setError_buffer _ _
      · rw [finishWriter_reader]
        exact StreamMessageQueue.setError_error _ _

end BidiStreamingCallState

/-! ## What an event does to the parser and to the reads -/

namespace BidiStreamingCall

/-- The bytes an event feeds to the parser. -/
def fed : BidiStreamingEvent → Bytes
  | .data chunk => chunk
  | _ => []

/-- The request bytes of a run. -/
def received (es : List BidiStreamingEvent) : Bytes := (es.map fed).flatten

/-- The messages that an event pushes into the reader's queue. -/
def pushed (u : BidiStreamingCall) (e : BidiStreamingEvent) : List Bytes :=
  (u.call.parser.feed (fed e)).messages

/-- The status that `Feed` returns in an event. -/
def feedStatus (u : BidiStreamingCall) (e : BidiStreamingEvent) : Status :=
  (u.call.parser.feed (fed e)).status

@[simp] theorem received_nil : received [] = [] := rfl

@[simp] theorem received_cons (e : BidiStreamingEvent) (es : List BidiStreamingEvent) :
    received (e :: es) = fed e ++ received es := rfl

/-- What an event other than a read does to parser, queue and results. -/
structure Feeds (u u' : BidiStreamingCall) (e : BidiStreamingEvent) : Prop where
  parser : u'.call.parser = (u.call.parser.feed (fed e)).parser
  results : u'.results = u.results
  buffer : u'.call.readerImpl.queue.buffer = u.call.readerImpl.queue.buffer ++ u.pushed e
  error : u.call.readerImpl.queue.error.isSome = true →
    u'.call.readerImpl.queue.error.isSome = true
  failed : (u.feedStatus e).isOk = false → u'.call.readerImpl.queue.error.isSome = true

/-- An event without request bytes. -/
theorem feeds_of_same {u u' : BidiStreamingCall} {e : BidiStreamingEvent} (he : fed e = [])
    (hr : u'.results = u.results) (h : BidiStreamingCallState.SameReader u.call u'.call) :
    Feeds u u' e := by
  refine ⟨?_, hr, ?_, h.error, ?_⟩
  · rw [h.parser, he]
    rfl
  · rw [h.buffer, pushed, he]
    simp [StreamingFrameParser.feed_nil]
  · intro hs
    rw [feedStatus, he] at hs
    cases hs

theorem feeds_step {z : Zlib} {u u' : BidiStreamingCall} {e : BidiStreamingEvent}
    (h : step z u e = some u') (hread : e ≠ .read) : Feeds u u' e := by
  cases step_move h with
  | read hreg hpop => exact absurd rfl hread
  | start req hnew =>
      exact feeds_of_same rfl rfl (BidiStreamingCallState.sameReader_start z u.call req)
  | data chunk hreg =>
      obtain ⟨hp, hb, he⟩ := u.call.onData_reader chunk
      refine ⟨hp, rfl, hb, fun hs => ?_, fun hf => ?_⟩
      · show (u.call.onData chunk).1.readerImpl.queue.error.isSome = true
        rw [he]
        split
        · exact hs
        · rfl
      · show (u.call.onData chunk).1.readerImpl.queue.error.isSome = true
        rw [he, show (u.call.parser.feed chunk).status.isOk = false from hf,
          if_neg Bool.false_ne_true]
        rfl
  | expire t ht => exact feeds_of_same rfl rfl ⟨rfl, rfl, id⟩
  | timerHandler slot t ht =>
      exact feeds_of_same rfl rfl (BidiStreamingCallState.SameReader.trans
        (d := { u.call with timer := t }) ⟨rfl, rfl, id⟩
        (BidiStreamingCallState.sameReader_onDeadline _ _))
  | cancel s slot =>
      exact feeds_of_same rfl rfl (BidiStreamingCallState.sameReader_cancel z u.call s _)
  | perform w hreg =>
      exact feeds_of_same rfl rfl (BidiStreamingCallState.sameReader_perform u.call w)
  | addMetadata trailing key value hreg => exact feeds_of_same rfl rfl ⟨rfl, rfl, id⟩
  | handlerReturn status hrun =>
      exact feeds_of_same rfl rfl (BidiStreamingCallState.sameReader_handlerReturned u.call status)
  | closeAgain slot hstart hclosed => exact feeds_of_same rfl rfl (.refl _)
  | close slot hstart hopen =>
      exact feeds_of_same rfl rfl (BidiStreamingCallState.sameReader_onClose u.call _)
  | poll len hreg hopen => exact feeds_of_same rfl rfl ⟨rfl, rfl, id⟩

/-- A read leaves the parser. -/
theorem read_step {z : Zlib} {u u' : BidiStreamingCall} (h : step z u .read = some u') :
    u'.call.parser = u.call.parser ∧ u'.call.readerImpl.queue = u.call.readerImpl.queue.pop.1 ∧
      u'.results = u.results ++ u.call.readerImpl.queue.pop.2.toList := by
  simp only [step, Option.ite_none_right_eq_some, Option.some.injEq] at h
  obtain ⟨_, rfl⟩ := h
  exact ⟨rfl, rfl, rfl⟩

/-- Every event leaves the parser as `Feed` on its bytes does. -/
theorem parser_step {z : Zlib} {u u' : BidiStreamingCall} {e : BidiStreamingEvent}
    (h : step z u e = some u') : u'.call.parser = (u.call.parser.feed (fed e)).parser := by
  by_cases hread : e = .read
  · subst hread
    exact (read_step h).1
  · exact (feeds_step h hread).parser

/-! ## The first failing chunk -/

/-- The parser is clean and at the unfinished frame `got`. -/
def AtFrame (m : Nat) (u : BidiStreamingCall) (got : Bytes) : Prop :=
  StreamingFrameParser.Clean m u.call.parser ∧ StreamingFrameParser.Represents m u.call.parser got

/-- `Feed` does not fail in the event. -/
def FeedsWell (u : BidiStreamingCall) (e : BidiStreamingEvent) : Prop :=
  (u.feedStatus e).isOk = true

instance (u : BidiStreamingCall) (e : BidiStreamingEvent) : Decidable (u.FeedsWell e) :=
  inferInstanceAs (Decidable (_ = true))

theorem atFrame_new (m maxMetadataSize maxResponseSize : Nat) (peerIdentity : Bytes) :
    AtFrame m (new (BidiStreamingCallState.new m maxMetadataSize maxResponseSize peerIdentity))
      [] :=
  ⟨StreamingFrameParser.new_clean m, StreamingFrameParser.new_represents m⟩

section

variable {z : Zlib} {m : Nat} {u u' v : BidiStreamingCall} {e : BidiStreamingEvent}
  {es : List BidiStreamingEvent} {got rest : Bytes} {s : Status}

/-- An event whose bytes the format accepts. -/
theorem AtFrame.accepted (h : AtFrame m u got) (hstep : step z u e = some u')
    (hscan : ((serverFormat m).scan (.pending got) (fed e)).1 = .pending rest) :
    u.FeedsWell e ∧ AtFrame m u' rest := by
  have hagree := StreamingFrameParser.feed_agrees h.2 (fed e)
  have hclean := StreamingFrameParser.feed_clean h.1 (fed e)
  simp only [Agrees, hscan] at hagree
  obtain ⟨_, hrep, hok⟩ := hagree
  rw [FeedResult.Meets, hok, if_pos Status.isOk_okStatus] at hclean
  refine ⟨?_, ?_⟩
  · rw [FeedsWell, feedStatus, hok]
    rfl
  · rw [AtFrame, parser_step hstep]
    exact ⟨hclean, hrep⟩

/-- An event whose bytes it rejects. -/
theorem AtFrame.rejected (h : AtFrame m u got) (hstep : step z u e = some u')
    (hscan : ((serverFormat m).scan (.pending got) (fed e)).1 = .rejected s) :
    u.feedStatus e = s ∧ s.isOk = false ∧ StreamingFrameParser.Failed m u'.call.parser s := by
  have hagree := StreamingFrameParser.feed_agrees h.2 (fed e)
  have hclean := StreamingFrameParser.feed_clean h.1 (fed e)
  simp only [Agrees, hscan] at hagree
  obtain ⟨_, hs, hbad⟩ := hagree
  rw [FeedResult.Meets, hs, hbad, if_neg Bool.false_ne_true] at hclean
  rw [parser_step hstep]
  exact ⟨hs, hbad, hclean⟩

/-- As long as no `Feed` fails the format accepts the bytes received. -/
theorem AtFrame.pending_of_feedsWell (h : AtFrame m u got) (hrun : (machine z).run u es = some v)
    (hwell : (machine z).Along FeedsWell u es) :
    ∃ rest, ((serverFormat m).scan (.pending got) (received es)).1 = .pending rest ∧
      AtFrame m v rest := by
  induction es generalizing u got with
  | nil =>
      rw [Machine.run_nil, Option.some.injEq] at hrun
      exact ⟨got, rfl, hrun ▸ h⟩
  | cons e es ih =>
      obtain ⟨w, hstep, hrest⟩ := Machine.run_cons_some.1 hrun
      obtain ⟨hfeeds, hwells⟩ := hwell
      cases hs : ((serverFormat m).scan (.pending got) (fed e)).1 with
      | rejected s =>
          obtain ⟨hst, hbad, _⟩ := h.rejected hstep hs
          rw [FeedsWell, hst, hbad] at hfeeds
          cases hfeeds
      | pending mid =>
          obtain ⟨rest, hscan, hrep⟩ := ih (h.accepted hstep hs).2 hrest (hwells w hstep)
          refine ⟨rest, ?_, hrep⟩
          rw [received_cons, LengthPrefix.scan_append, hs]
          exact hscan

/-- As long as the format accepts the bytes received no `Feed` fails. -/
theorem AtFrame.feedsWell_of_pending (h : AtFrame m u got)
    (hrun : (machine z).run u es = some v)
    (hscan : ((serverFormat m).scan (.pending got) (received es)).1 = .pending rest) :
    (machine z).Along FeedsWell u es := by
  induction es generalizing u got with
  | nil => trivial
  | cons e es ih =>
      obtain ⟨w, hstep, hrest⟩ := Machine.run_cons_some.1 hrun
      rw [received_cons, LengthPrefix.scan_append] at hscan
      cases hs : ((serverFormat m).scan (.pending got) (fed e)).1 with
      | rejected s =>
          rw [hs] at hscan
          simp at hscan
      | pending mid =>
          rw [hs] at hscan
          obtain ⟨hfeeds, hnext⟩ := h.accepted hstep hs
          refine ⟨hfeeds, fun x hx => ?_⟩
          rw [show (machine z).step u e = some w from hstep, Option.some.injEq] at hx
          subst hx
          exact ih hnext hrest hscan

end

/-! ## The chunks after it -/

/-- The parser holds at most `m` payload bytes. -/
def Within (m : Nat) (u : BidiStreamingCall) : Prop := u.call.parser.payload.length ≤ m

/-- The event pushes nothing, and the parser is within its limit. -/
def Quiet (m : Nat) (u : BidiStreamingCall) (e : BidiStreamingEvent) : Prop :=
  u.pushed e = [] ∧ u.Within m

/-- Bytes that leave the announced length open push nothing. -/
theorem quiet_of_short {z : Zlib} {m len : Nat} {es : List BidiStreamingEvent} {held : Nat}
    {u w : BidiStreamingCall} (h : u.call.parser.Blocked len held)
    (hrun : (machine z).run u es = some w) (hmax : held + (received es).length ≤ m)
    (hshort : received es = [] ∨ held + (received es).length < len) :
    (machine z).Along (Quiet m) u es ∧ w.Within m := by
  induction es generalizing u held with
  | nil =>
      rw [Machine.run_nil, Option.some.injEq] at hrun
      subst hrun
      refine ⟨trivial, ?_⟩
      rw [Within, h.buffered]
      simpa using hmax
  | cons e es ih =>
      obtain ⟨x, hstep, hrest⟩ := Machine.run_cons_some.1 hrun
      rw [received_cons, List.length_append] at hmax
      rw [received_cons, List.append_eq_nil_iff, List.length_append] at hshort
      have hfeed : u.pushed e = [] ∧ x.call.parser.Blocked len (held + (fed e).length) := by
        rw [pushed, parser_step hstep]
        rcases hshort with ⟨he, _⟩ | hlt
        · rw [he]
          exact ⟨rfl, h⟩
        · have hshort' : held + (fed e).length < len := by omega
          obtain ⟨hmsg, _, hb⟩ := h.feed_short hshort'
          exact ⟨hmsg, hb⟩
      have hnext := ih hfeed.2 hrest (by omega) (hshort.imp And.right fun hlt => by omega)
      refine ⟨⟨⟨hfeed.1, ?_⟩, fun y hy => ?_⟩, hnext.2⟩
      · rw [Within, h.buffered]
        omega
      · rw [show (machine z).step u e = some x from hstep, Option.some.injEq] at hy
        subst hy
        exact hnext.1

/-- If nothing is pushed, the announced length stays open and the buffer keeps what came. -/
theorem blocked_of_quiet {z : Zlib} {m len : Nat} {es : List BidiStreamingEvent} {held : Nat}
    {u w : BidiStreamingCall} (h : u.call.parser.Blocked len held)
    (hrun : (machine z).run u es = some w) (hquiet : (machine z).Along (Quiet m) u es) :
    w.call.parser.Blocked len (held + (received es).length) := by
  induction es generalizing u held with
  | nil =>
      rw [Machine.run_nil, Option.some.injEq] at hrun
      subst hrun
      exact h
  | cons e es ih =>
      obtain ⟨x, hstep, hrest⟩ := Machine.run_cons_some.1 hrun
      obtain ⟨⟨hpush, _⟩, hquiets⟩ := hquiet
      have hx : x.call.parser.Blocked len (held + (fed e).length) := by
        rw [parser_step hstep]
        by_cases hlt : held + (fed e).length < len
        · exact (h.feed_short hlt).2.2
        · by_cases hne : fed e = []
          · rw [hne]
            exact h
          · exact absurd hpush (h.feed_full hne (Nat.le_of_not_lt hlt))
      have hw := ih hx hrest (hquiets x hstep)
      rwa [received_cons, List.length_append, ← Nat.add_assoc]

/-! ## What the handler reads after it -/

/-- No data after the error `s`. -/
def NoDataAfter (s : Status) (results : List PopResult) : Prop :=
  ∀ before after : List PopResult, results = before ++ .error s :: after →
    ∀ r ∈ after, r.data = none

/-- The results since an error was set: messages, and then errors once the queue was empty. -/
def Drains (u : BidiStreamingCall) (results : List PopResult) : Prop :=
  u.call.readerImpl.queue.error.isSome = true ∧
    ∃ msgs errs, results = msgs ++ errs ∧ (∀ r ∈ msgs, r.status.isOk = true) ∧
      (∀ r ∈ errs, r.data = none) ∧
      (errs ≠ [] → u.call.readerImpl.queue.buffer = [])

theorem Drains.noDataAfter {u : BidiStreamingCall} {results : List PopResult}
    (h : Drains u results) {s : Status} (hs : s.isOk = false) : NoDataAfter s results := by
  obtain ⟨_, msgs, errs, rfl, hmsgs, herrs, _⟩ := h
  intro before after heq r hr
  rcases List.append_eq_append_iff.1 heq with ⟨mid, _, hafter⟩ | ⟨mid, hbefore, hafter⟩
  · exact herrs r (by rw [hafter]; simp [hr])
  · cases mid with
    | nil =>
        rw [List.nil_append] at hafter
        exact herrs r (by rw [← hafter]; exact List.mem_cons_of_mem _ hr)
    | cons x mid =>
        obtain ⟨rfl, _⟩ := List.cons.inj hafter
        have hok := hmsgs (.error s) (by rw [hbefore]; simp)
        rw [show (PopResult.error s).status = s from rfl, hs] at hok
        cases hok

/-- A read takes a message, or reports the error of the empty queue. -/
theorem Drains.read {z : Zlib} {u u' : BidiStreamingCall} {results : List PopResult}
    (h : Drains u results) (hstep : step z u .read = some u') :
    Drains u' (results ++ u.call.readerImpl.queue.pop.2.toList) := by
  obtain ⟨herr, msgs, errs, rfl, hmsgs, herrs, hempty⟩ := h
  obtain ⟨_, hqueue, _⟩ := read_step hstep
  refine ⟨by rw [hqueue, StreamMessageQueue.pop_error]; exact herr, ?_⟩
  rcases u.call.readerImpl.queue.pop_result with ⟨msg, rest, hb, hpop, _⟩ | ⟨_, hpop, hrest⟩
  · -- a message was left, so no error was reported yet
    have hnone : errs = [] := by
      by_contra hne
      rw [hempty hne] at hb
      cases hb
    refine ⟨msgs ++ [.message msg], [], ?_, ?_, by simp, fun hne => absurd rfl hne⟩
    · simp [hnone, hpop]
    · intro r hr
      rcases List.mem_append.1 hr with hr | hr
      · exact hmsgs r hr
      · rw [List.mem_singleton.1 hr]
        rfl
  · obtain ⟨s, hs⟩ := Option.isSome_iff_exists.1 herr
    refine ⟨msgs, errs ++ [.error s], ?_, hmsgs, ?_, fun _ => by rw [hqueue]; exact hrest⟩
    · simp [hpop, StreamMessageQueue.ending, hs]
    · intro r hr
      rcases List.mem_append.1 hr with hr | hr
      · exact herrs r hr
      · rw [List.mem_singleton.1 hr]
        rfl

/-- Reads of a queue into which nothing is pushed. -/
theorem drains_run {z : Zlib} {m : Nat} {es : List BidiStreamingEvent} {u w : BidiStreamingCall}
    {results : List PopResult} (h : Drains u results) (hrun : (machine z).run u es = some w)
    (hquiet : (machine z).Along (Quiet m) u es) :
    ∃ rs, w.results = u.results ++ rs ∧ Drains w (results ++ rs) := by
  induction es generalizing u results with
  | nil =>
      rw [Machine.run_nil, Option.some.injEq] at hrun
      subst hrun
      exact ⟨[], by simp, by simpa using h⟩
  | cons e es ih =>
      obtain ⟨x, hstep, hrest⟩ := Machine.run_cons_some.1 hrun
      obtain ⟨⟨hpush, _⟩, hquiets⟩ := hquiet
      by_cases hread : e = .read
      · subst hread
        obtain ⟨rs, hrs, hdrains⟩ := ih (h.read (z := z) hstep) hrest (hquiets x hstep)
        refine ⟨u.call.readerImpl.queue.pop.2.toList ++ rs, ?_, ?_⟩
        · rw [hrs, (read_step (z := z) hstep).2.2, List.append_assoc]
        · rwa [← List.append_assoc]
      · have hfeeds := feeds_step hstep hread
        obtain ⟨herr, msgs, errs, hres, hmsgs, herrs, hempty⟩ := h
        have hbuf := hfeeds.buffer
        rw [hpush, List.append_nil] at hbuf
        have hx : Drains x results :=
          ⟨hfeeds.error herr, msgs, errs, hres, hmsgs, herrs, fun hne => hbuf.trans (hempty hne)⟩
        obtain ⟨rs, hrs, hdrains⟩ := ih hx hrest (hquiets x hstep)
        exact ⟨rs, by rw [hrs, hfeeds.results], hdrains⟩

/-! ## Framing errors are final -/

/-- What is asked of the events `es` that lead from `u`, where `Feed` has just returned `s`, to `w`:
no event pushes a message, the parser stays within the limit, and no read returns data after `s`. -/
structure ErrorFinal (z : Zlib) (m : Nat) (s : Status) (u : BidiStreamingCall)
    (es : List BidiStreamingEvent) (w : BidiStreamingCall) : Prop where
  quiet : (machine z).Along (Quiet m) u es
  within : w.Within m
  reads : ∀ rs, w.results = u.results ++ rs → NoDataAfter s rs

/-- The error of the first `Feed` that fails is final. -/
def ErrorsFinal (z : Zlib) (m : Nat) (u : BidiStreamingCall) (es : List BidiStreamingEvent) :
    Prop :=
  ∀ pre e post v v' w, es = pre ++ e :: post → (machine z).run u pre = some v →
    (machine z).Along FeedsWell u pre → ¬ v.FeedsWell e → step z v e = some v' →
    (machine z).run v' post = some w → ErrorFinal z m (v.feedStatus e) v' post w

/-- The condition on the request from the unfinished frame `got` on: after the chunk with the first
rejected header no byte follows, if its flag is bad, and at most `m` bytes, if its length is over
the limit. -/
def Spared (m : Nat) : Bytes → List BidiStreamingEvent → Prop
  | _, [] => True
  | got, e :: es =>
      match ((serverFormat m).scan (.pending got) (fed e)).1 with
      | .pending rest => Spared m rest es
      | .rejected s => (received es).length ≤ StreamingFrameParser.slack m s

instance decidableSpared (m : Nat) :
    ∀ (got : Bytes) (es : List BidiStreamingEvent), Decidable (Spared m got es)
  | _, [] => isTrue trivial
  | got, e :: es =>
      match h : ((serverFormat m).scan (.pending got) (fed e)).1 with
      | .pending rest =>
          have := decidableSpared m rest es
          decidable_of_iff (Spared m rest es) (by rw [Spared, h])
      | .rejected s =>
          decidable_of_iff ((received es).length ≤ StreamingFrameParser.slack m s)
            (by rw [Spared, h])

/-- The condition at the first rejected header, wherever it is. -/
theorem spared_iff {m : Nat} {got : Bytes} {es : List BidiStreamingEvent} :
    Spared m got es ↔ ∀ pre e post mid s, es = pre ++ e :: post →
      ((serverFormat m).scan (.pending got) (received pre)).1 = .pending mid →
      ((serverFormat m).scan (.pending mid) (fed e)).1 = .rejected s →
      (received post).length ≤ StreamingFrameParser.slack m s := by
  induction es generalizing got with
  | nil =>
      constructor
      · intro _ pre e post _ _ hes
        cases pre <;> cases hes
      · intro _
        exact trivial
  | cons e es ih =>
      cases hscan : ((serverFormat m).scan (.pending got) (fed e)).1 with
      | rejected s =>
          rw [Spared, hscan]
          constructor
          · intro hle pre e' post mid s' hes hpre hrej
            cases pre with
            | nil =>
                obtain ⟨rfl, rfl⟩ := List.cons.inj hes
                obtain rfl := LengthPrefix.Scan.pending.inj hpre
                obtain rfl := LengthPrefix.Scan.rejected.inj (hscan.symm.trans hrej)
                exact hle
            | cons f pre =>
                -- a rejected stream is not pending any more
                obtain ⟨rfl, _⟩ := List.cons.inj hes
                rw [received_cons, LengthPrefix.scan_append, hscan] at hpre
                simp at hpre
          · intro h
            exact h [] e es got s rfl rfl hscan
      | pending rest =>
          rw [Spared, hscan]
          constructor
          · intro hspared pre e' post mid s' hes hpre hrej
            cases pre with
            | nil =>
                obtain ⟨rfl, rfl⟩ := List.cons.inj hes
                obtain rfl := LengthPrefix.Scan.pending.inj hpre
                rw [hscan] at hrej
                cases hrej
            | cons f pre =>
                obtain ⟨rfl, rfl⟩ := List.cons.inj hes
                rw [received_cons, LengthPrefix.scan_append, hscan] at hpre
                exact ih.1 hspared pre e' post mid s' rfl hpre hrej
          · intro h
            apply ih.2
            intro pre e' post mid s' hes hpre hrej
            -- the event only moves on within the stream
            refine h (e :: pre) e' post mid s' (by rw [hes]; rfl) ?_ hrej
            rw [received_cons, LengthPrefix.scan_append, hscan]
            exact hpre

/-- At one rejected header: the error is final exactly when little follows. -/
theorem errorFinal_iff {z : Zlib} {m : Nat} {got : Bytes} {s : Status}
    {v v' w : BidiStreamingCall} {e : BidiStreamingEvent} {post : List BidiStreamingEvent}
    (h : AtFrame m v got) (hstep : step z v e = some v')
    (hscan : ((serverFormat m).scan (.pending got) (fed e)).1 = .rejected s)
    (hrun : (machine z).run v' post = some w) :
    ErrorFinal z m s v' post w ↔ (received post).length ≤ StreamingFrameParser.slack m s := by
  obtain ⟨hst, hbad, len, hblocked, hlen⟩ := h.rejected hstep hscan
  constructor
  · intro hfinal
    have hw := blocked_of_quiet hblocked hrun hfinal.quiet
    have hfits := hw.fits
    have hmax := hfinal.within
    rw [Within, hw.buffered] at hmax
    rcases hlen with ⟨rfl, hs⟩ | ⟨_, hs⟩
    · omega
    · omega
  · intro hle
    have hshort : received post = [] ∨ 0 + (received post).length < len := by
      rcases hlen with ⟨_, hs⟩ | ⟨hm, hs⟩
      · exact Or.inl (List.length_eq_zero_iff.1 (by omega))
      · exact Or.inr (by omega)
    have hmax : 0 + (received post).length ≤ m := by
      rcases hlen with ⟨_, hs⟩ | ⟨_, hs⟩ <;> omega
    obtain ⟨hquiet, hwithin⟩ := quiet_of_short hblocked hrun hmax hshort
    refine ⟨hquiet, hwithin, fun rs hrs => ?_⟩
    have hread : e ≠ .read := by
      rintro rfl
      cases hscan
    have herr := (feeds_step hstep hread).failed (by rw [hst]; exact hbad)
    have hdrains : Drains v' [] := ⟨herr, [], [], rfl, by simp, by simp, fun hne => absurd rfl hne⟩
    obtain ⟨rs', hrs', hw⟩ := drains_run hdrains hrun hquiet
    rw [List.append_cancel_left (hrs.symm.trans hrs')]
    exact Drains.noDataAfter (by simpa using hw) hbad

/-- **Framing errors are final exactly when little follows.** As long as no `Feed` fails the parser
is within its limit; the first error is final if and only if no byte follows the chunk with a bad
flag, and at most `max_message_size_` bytes the chunk with an oversized length. -/
theorem framing_error_final (z : Zlib) (m maxMetadataSize maxResponseSize : Nat)
    (peerIdentity : Bytes) (es : List BidiStreamingEvent) (w : BidiStreamingCall)
    (hrun : (machine z).run
      (new (BidiStreamingCallState.new m maxMetadataSize maxResponseSize peerIdentity)) es =
        some w) :
    ((machine z).Along FeedsWell
      (new (BidiStreamingCallState.new m maxMetadataSize maxResponseSize peerIdentity)) es →
        w.Within m) ∧
    (ErrorsFinal z m
      (new (BidiStreamingCallState.new m maxMetadataSize maxResponseSize peerIdentity)) es ↔
        Spared m [] es) := by
  have hnew := atFrame_new m maxMetadataSize maxResponseSize peerIdentity
  refine ⟨fun hwell => ?_, fun hfinal => ?_, fun hspared => ?_⟩
  · obtain ⟨rest, _, hw⟩ := hnew.pending_of_feedsWell hrun hwell
    exact hw.1.buffered
  · apply spared_iff.2
    intro pre e post got s hes hpre hscan
    subst hes
    rw [Machine.run_append] at hrun
    -- the call is at the frame that the bytes before have begun
    obtain ⟨v, hv, hrest⟩ := hrun
    obtain ⟨v', hstep, hpost⟩ := Machine.run_cons_some.1 hrest
    have hwell := hnew.feedsWell_of_pending hv hpre
    obtain ⟨rest, hrest', hat⟩ := hnew.pending_of_feedsWell hv hwell
    obtain rfl := LengthPrefix.Scan.pending.inj (hpre.symm.trans hrest')
    obtain ⟨hst, hbad, _⟩ := hat.rejected hstep hscan
    have hfails : ¬ v.FeedsWell e := by
      rw [FeedsWell, hst, hbad]
      exact Bool.false_ne_true
    have h := hfinal pre e post v v' w rfl hv hwell hfails hstep hpost
    rw [hst] at h
    exact (errorFinal_iff hat hstep hscan hpost).1 h
  · intro pre e post v v' w' hes hv hwell hfails hstep hpost
    obtain ⟨got, hpre, hat⟩ := hnew.pending_of_feedsWell hv hwell
    -- an event that fails to feed well is one whose bytes are rejected
    cases hscan : ((serverFormat m).scan (.pending got) (fed e)).1 with
    | pending rest => exact absurd (hat.accepted hstep hscan).1 hfails
    | rejected s =>
        rw [(hat.rejected hstep hscan).1]
        exact (errorFinal_iff hat hstep hscan hpost).2
          (spared_iff.1 hspared pre e post got s hes hpre hscan)

/-- A call with a limit of four bytes. -/
def fourByteCall : BidiStreamingCall := new (BidiStreamingCallState.new 4 0 0 [])

/-- A message, then a header that announces five bytes, of which four arrive. -/
theorem framing_error_final_example :
    ∃ w, (machine Zlib.none).run fourByteCall
        [.start ⟨[], []⟩, .data [0, 0, 0, 0, 1, 7], .data [0, 0, 0, 0, 5], .read, .read,
          .data [1, 2, 3, 4], .read] = some w ∧
      ErrorsFinal Zlib.none 4 fourByteCall
        [.start ⟨[], []⟩, .data [0, 0, 0, 0, 1, 7], .data [0, 0, 0, 0, 5], .read, .read,
          .data [1, 2, 3, 4], .read] := by
  obtain ⟨w, hw⟩ := Option.isSome_iff_exists.1 (show ((machine Zlib.none).run fourByteCall
    [.start ⟨[], []⟩, .data [0, 0, 0, 0, 1, 7], .data [0, 0, 0, 0, 5], .read, .read,
      .data [1, 2, 3, 4], .read]).isSome = true by decide)
  exact ⟨w, hw, (framing_error_final Zlib.none 4 0 0 [] _ w hw).2.2 (by decide)⟩

/-- **Framing errors that are not final.** One byte after a bad flag completes an empty message; the
five bytes that an oversized header announced are handed over. The handler reads either after the
error. -/
theorem not_framing_error_final :
    (∃ w, (machine Zlib.none).run fourByteCall
        [.start ⟨[], []⟩, .data [2, 0, 0, 0, 0], .read, .data [0], .read] = some w ∧
      w.results = [.error (Status.of .invalidArgument (text "invalid LPM compression flag")),
        .message []] ∧
      ¬ ErrorsFinal Zlib.none 4 fourByteCall
        [.start ⟨[], []⟩, .data [2, 0, 0, 0, 0], .read, .data [0], .read]) ∧
    ∃ w, (machine Zlib.none).run fourByteCall
        [.start ⟨[], []⟩, .data [0, 0, 0, 0, 5], .read, .data [1, 2, 3, 4, 5], .read] = some w ∧
      w.results = [.error (Status.of .resourceExhausted (text "message length exceeds limit")),
        .message [1, 2, 3, 4, 5]] ∧
      ¬ ErrorsFinal Zlib.none 4 fourByteCall
        [.start ⟨[], []⟩, .data [0, 0, 0, 0, 5], .read, .data [1, 2, 3, 4, 5], .read] := by
  refine ⟨⟨_, rfl, by decide, fun h => ?_⟩, ⟨_, rfl, by decide, fun h => ?_⟩⟩
  · have hfinal := h [.start ⟨[], []⟩] (.data [2, 0, 0, 0, 0]) [.read, .data [0], .read] _ _ _ rfl
      rfl (by decide) (by decide) rfl rfl
    have hnone := hfinal.reads _ rfl [] [.message []] (by decide) (.message []) (by simp)
    cases hnone
  · have hfinal := h [.start ⟨[], []⟩] (.data [0, 0, 0, 0, 5])
      [.read, .data [1, 2, 3, 4, 5], .read] _ _ _ rfl rfl (by decide) (by decide) rfl rfl
    have hnone := hfinal.reads _ rfl [] [.message [1, 2, 3, 4, 5]] (by decide)
      (.message [1, 2, 3, 4, 5]) (by simp)
    cases hnone

end BidiStreamingCall

end Rpcpio.Server
