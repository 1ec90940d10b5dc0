import Rpcpio.Protocol.Framing

/-!
# Parsers of message streams

The server parses the messages of a stream with `StreamingFrameParser`; the three streaming client
calls have the same loop inlined in their data callback, modelled once as `LpmReader`. Both keep a
partial header or a partial payload between chunks. `serverFormat` and `clientFormat` are the
formats they accept; `StreamingFrameParser.feed_scan` and `LpmReader.feed_scan` say that feeding a
chunk is reading it in that format, whatever the chunk is.
-/

set_option autoImplicit false

namespace Rpcpio.Protocol

open Rpcpio.Library

/-- What a call of `Feed`, or one iteration of its loop, leaves: the parser, the payloads handed to
the callback and the status. -/
structure FeedResult (π : Type) where
  parser : π
  messages : List Bytes
  status : Status

/-- The loop over a chunk, which an error leaves. An iteration that takes no byte is followed by
one that does, so twice the length of the chunk bounds the iterations. -/
def chunkLoop {π : Type} (iter : π → Bytes → FeedResult π × Bytes) :
    Nat → π → Bytes → FeedResult π
  | 0, p, _ => ⟨p, [], Status.okStatus⟩
  | fuel + 1, p, chunk =>
      if chunk.isEmpty then ⟨p, [], Status.okStatus⟩
      else
        let r := iter p chunk
        if r.1.status.isOk then
          let t := chunkLoop iter fuel r.1.parser r.2
          ⟨t.parser, r.1.messages ++ t.messages, t.status⟩
        else r.1

/-! ## The server parser -/

/-- `StreamingFrameParser`. -/
structure StreamingFrameParser where
  maxMessageSize : Nat
  headerBuf : Bytes
  headerBytes : Nat
  payloadLen : Nat
  payload : Bytes
  deriving DecidableEq, Repr

namespace StreamingFrameParser

/-- The constructor. -/
def new (maxMessageSize : Nat) : StreamingFrameParser :=
  ⟨maxMessageSize, List.replicate 5 0, 0, 0, []⟩

/-- `between_frames`. -/
def betweenFrames (p : StreamingFrameParser) : Bool := p.headerBytes = 0 ∧ p.payload = []

/-- The branch of `Feed` taken when the fifth header byte has arrived. -/
def parseHeader (p : StreamingFrameParser) : FeedResult StreamingFrameParser :=
  let compress := p.headerBuf.getD 0 0
  if compress ≠ 0 ∧ compress ≠ 1 then
    ⟨p, [], Status.of .invalidArgument (text "invalid LPM compression flag")⟩
  else
    let p := { p with payloadLen := headerLength p.headerBuf }
    if p.maxMessageSize < p.payloadLen then
      ⟨p, [], Status.of .resourceExhausted (text "message length exceeds limit")⟩
    else
      let p := { p with payload := [] }
      if p.payloadLen = 0 then ⟨{ p with headerBytes := 0 }, [p.payload], Status.okStatus⟩
      else ⟨p, [], Status.okStatus⟩

/-- The header branch of the loop, with the bytes it takes from the chunk. -/
def headerBlock (p : StreamingFrameParser) (bytes : Bytes) : FeedResult StreamingFrameParser :=
  let p := { p with
    headerBuf := memcpy p.headerBuf p.headerBytes bytes
    headerBytes := p.headerBytes + bytes.length }
  if p.headerBytes = 5 then p.parseHeader else ⟨p, [], Status.okStatus⟩

/-- The payload branch of the loop, with the bytes it takes from the chunk. -/
def payloadBlock (p : StreamingFrameParser) (bytes : Bytes) : FeedResult StreamingFrameParser :=
  let p := { p with payload := p.payload ++ bytes }
  if p.payload.length = p.payloadLen then
    ⟨{ p with headerBytes := 0, payloadLen := 0, payload := [] }, [p.payload], Status.okStatus⟩
  else ⟨p, [], Status.okStatus⟩

/-- One iteration of the loop of `Feed` on a nonempty chunk, and the rest of the chunk. -/
def feedIter (p : StreamingFrameParser) (chunk : Bytes) :
    FeedResult StreamingFrameParser × Bytes :=
  if p.headerBytes < 5 then
    let take := min (sizeSub 5 p.headerBytes) chunk.length
    (p.headerBlock (chunk.take take), chunk.drop take)
  else
    let take := min (sizeSub p.payloadLen p.payload.length) chunk.length
    (p.payloadBlock (chunk.take take), chunk.drop take)

/-- `Feed`. -/
def feed (p : StreamingFrameParser) (chunk : Bytes) : FeedResult StreamingFrameParser :=
  chunkLoop feedIter (2 * chunk.length) p chunk

end StreamingFrameParser

/-! ## The client parser -/

/-- The parser members of the streaming client calls. -/
structure LpmReader where
  hdrBuf : Bytes
  hdrBytes : Nat
  payloadLen : Nat
  payloadBuf : Bytes
  hdrDone : Bool
  deriving DecidableEq, Repr

namespace LpmReader

/-- The initial values of the members. -/
def new : LpmReader := ⟨List.replicate 5 0, 0, 0, [], false⟩

/-- The branch of the loop taken when the fifth header byte has arrived. -/
def parseHeader (p : LpmReader) (maxMsgSize : Nat) : FeedResult LpmReader :=
  let p := { p with hdrDone := true, payloadLen := headerLength p.hdrBuf }
  if maxMsgSize < p.payloadLen then
    ⟨p, [], Status.of .resourceExhausted (text "received message too large")⟩
  else
    let p := { p with payloadBuf := [] }
    if p.payloadLen = 0 then
      ⟨{ p with hdrDone := false, hdrBytes := 0 }, [[]], Status.okStatus⟩
    else ⟨p, [], Status.okStatus⟩

/-- The header branch of the loop, with the bytes it takes from the chunk. -/
def headerBlock (p : LpmReader) (maxMsgSize : Nat) (bytes : Bytes) : FeedResult LpmReader :=
  let p := { p with
    hdrBuf := memcpy p.hdrBuf p.hdrBytes bytes
    hdrBytes := p.hdrBytes + bytes.length }
  if p.hdrBytes = 5 then p.parseHeader maxMsgSize else ⟨p, [], Status.okStatus⟩

/-- The payload branch of the loop, with the bytes it takes from the chunk. -/
def payloadBlock (p : LpmReader) (bytes : Bytes) : FeedResult LpmReader :=
  let p := { p with payloadBuf := p.payloadBuf ++ bytes }
  if p.payloadBuf.length = p.payloadLen then
    ⟨{ p with hdrDone := false, hdrBytes := 0, payloadLen := 0, payloadBuf := [] },
      [p.payloadBuf], Status.okStatus⟩
  else ⟨p, [], Status.okStatus⟩

/-- One iteration of the loop over a data chunk, and the rest of the chunk. -/
def feedIter (p : LpmReader) (maxMsgSize : Nat) (chunk : Bytes) : FeedResult LpmReader × Bytes :=
  if !p.hdrDone then
    let take := min (sizeSub 5 p.hdrBytes) chunk.length
    (p.headerBlock maxMsgSize (chunk.take take), chunk.drop take)
  else
    let take := min (sizeSub p.payloadLen p.payloadBuf.length) chunk.length
    (p.payloadBlock (chunk.take take), chunk.drop take)

/-- The data callback's loop on one chunk; a status other than `OK` is the one passed to `Fail`. -/
def feed (p : LpmReader) (maxMsgSize : Nat) (chunk : Bytes) : FeedResult LpmReader :=
  chunkLoop (fun p => p.feedIter maxMsgSize) (2 * chunk.length) p chunk

end LpmReader

/-! ## The formats -/

/-- What the server accepts: flag zero or one, and a length within the limit. -/
def serverFormat (maxMessageSize : Nat) : LengthPrefix UInt8 Status where
  headerSize := 5
  headerSize_pos := by decide
  announce header :=
    if header.getD 0 0 ≠ 0 ∧ header.getD 0 0 ≠ 1 then
      .error (Status.of .invalidArgument (text "invalid LPM compression flag"))
    else if maxMessageSize < headerLength header then
      .error (Status.of .resourceExhausted (text "message length exceeds limit"))
    else .ok (headerLength header)

/-- What the client accepts: a length within the limit, with any flag. -/
def clientFormat (maxMsgSize : Nat) : LengthPrefix UInt8 Status where
  headerSize := 5
  headerSize_pos := by decide
  announce header :=
    if maxMsgSize < headerLength header then
      .error (Status.of .resourceExhausted (text "received message too large"))
    else .ok (headerLength header)

/-- The frame of a message within the limit is a frame of the server's format. -/
theorem messageFrame_serverFormat {m : Nat} {p : Bytes} (hm : p.length ≤ m)
    (hp : p.length < 2 ^ 32) : (serverFormat m).WellFormed (messageFrame 0 p) := by
  refine ⟨rfl, ?_⟩
  have hlen : headerLength (framePrefix 0 p.length) = p.length := headerLength_framePrefix 0 hp
  have hflag : (framePrefix 0 p.length)[0]?.getD 0 = 0 := rfl
  simp [serverFormat, messageFrame, hlen, hflag, Nat.not_lt.2 hm]

/-- The frame of a message within the limit is a frame of the client's format. -/
theorem messageFrame_clientFormat {m : Nat} {p : Bytes} (hm : p.length ≤ m)
    (hp : p.length < 2 ^ 32) : (clientFormat m).WellFormed (messageFrame 0 p) := by
  refine ⟨rfl, ?_⟩
  have hlen : headerLength (framePrefix 0 p.length) = p.length := headerLength_framePrefix 0 hp
  simp [clientFormat, messageFrame, hlen, Nat.not_lt.2 hm]

/-! ## Feeding a chunk is reading it in the format -/

/-- The members of a parser hold the unfinished frame `got`: part of a header, or an accepted header
and part of its payload. -/
inductive Holds (F : LengthPrefix UInt8 Status) (headerBuf : Bytes) (payloadLen : Nat)
    (payload : Bytes) : Bool → Nat → Bytes → Prop
  | header {n : Nat} (hlen : headerBuf.length = 5) (hn : n < 5) :
      Holds F headerBuf payloadLen payload false n (headerBuf.take n)
  | payload (hlen : headerBuf.length = 5) (hann : F.announce headerBuf = .ok payloadLen)
      (hlt : payload.length < payloadLen) :
      Holds F headerBuf payloadLen payload true 5 (headerBuf ++ payload)

/-- A result agrees with an outcome of reading: the same messages, and the unfinished frame held or
the rejection returned. -/
def Agrees {π : Type} (rep : π → Bytes → Prop)
    (o : LengthPrefix.Scan UInt8 Status × List (LengthPrefix.Frame UInt8)) (r : FeedResult π) :
    Prop :=
  r.messages = o.2.map LengthPrefix.Frame.payload ∧
    match o.1 with
    | .pending rest => rep r.parser rest ∧ r.status = Status.okStatus
    | .rejected e => r.status = e ∧ e.isOk = false

/-- If an iteration takes a nonempty block and follows the format on it, so does the loop. -/
theorem chunkLoop_agrees {π : Type} {F : LengthPrefix UInt8 Status} {rep : π → Bytes → Prop}
    {iter : π → Bytes → FeedResult π × Bytes}
    (hiter : ∀ p got chunk, rep p got → chunk ≠ [] →
      ∃ k, 0 < k ∧ (iter p chunk).2 = chunk.drop k ∧
        Agrees rep (F.scan (.pending got) (chunk.take k)) (iter p chunk).1) :
    ∀ (fuel : Nat) (p : π) (got chunk : Bytes), rep p got → chunk.length ≤ fuel →
      Agrees rep (F.scan (.pending got) chunk) (chunkLoop iter fuel p chunk)
  | 0, p, got, chunk, hp, hfuel => by
      have hnil : chunk = [] := List.length_eq_zero_iff.1 (Nat.le_zero.1 hfuel)
      subst hnil
      exact ⟨rfl, hp, rfl⟩
  | fuel + 1, p, got, chunk, hp, hfuel => by
      by_cases hne : chunk = []
      · subst hne
        exact ⟨rfl, hp, rfl⟩
      · obtain ⟨k, hk0, hrest, hmsg, hout⟩ := hiter p got chunk hp hne
        have hscan := LengthPrefix.scan_take_drop (F := F) (.pending got) chunk k
        have hemp : chunk.isEmpty = false := by simpa using hne
        simp only [chunkLoop, hemp, Bool.false_eq_true, if_false]
        cases hs : (F.scan (.pending got) (chunk.take k)).1 with
        | pending rest =>
            rw [hs] at hout hscan
            have hlen : (chunk.drop k).length ≤ fuel := by
              rw [List.length_drop]
              omega
            obtain ⟨htmsg, htout⟩ :=
              chunkLoop_agrees hiter fuel (iter p chunk).1.parser rest _ hout.1 hlen
            simp only [hout.2, Status.isOk_okStatus, if_true, hrest, Agrees, hscan]
            refine ⟨?_, htout⟩
            rw [hmsg, htmsg, List.map_append]
        | rejected e =>
            rw [hs] at hout hscan
            simp only [Agrees, hscan, LengthPrefix.scan_rejected, List.append_nil]
            have hst : (iter p chunk).1.status.isOk = false := by rw [hout.1, hout.2]
            simp only [hst, Bool.false_eq_true, if_false]
            exact ⟨hmsg, hout⟩

/-- The decision on a complete header: rejected, an empty message, or a payload to come. -/
theorem settle_header {F : LengthPrefix UInt8 Status} (hF : F.headerSize = 5) {header : Bytes}
    (hlen : header.length = 5) :
    F.settle header =
      match F.announce header with
      | .error e => (.rejected e, [])
      | .ok 0 => (.pending [], [⟨header, []⟩])
      | .ok (_ + 1) => (.pending header, []) := by
  have htake : header.take F.headerSize = header := List.take_of_length_le (by omega)
  cases ha : F.announce header with
  | error e => exact LengthPrefix.settle_of_error (by omega) (by rw [htake, ha])
  | ok n =>
      cases n with
      | zero =>
          rw [LengthPrefix.settle_of_finished (n := 0) (by rw [htake, ha]) (by omega), htake,
            List.drop_of_length_le (by omega)]
      | succ n =>
          refine LengthPrefix.settle_of_unfinished (Or.inr ⟨n + 1, by rw [htake, ha], by omega⟩)

/-- The decision on a header followed by payload bytes. -/
theorem settle_payload {F : LengthPrefix UInt8 Status} (hF : F.headerSize = 5)
    {header payload : Bytes} {n : Nat} (hlen : header.length = 5) (ha : F.announce header = .ok n)
    (hle : payload.length ≤ n) :
    F.settle (header ++ payload) =
      if payload.length = n then (.pending [], [⟨header, payload⟩])
      else (.pending (header ++ payload), []) := by
  have htake : (header ++ payload).take F.headerSize = header := by
    rw [hF, ← hlen, List.take_left]
  have hdrop : (header ++ payload).drop F.headerSize = payload := by
    rw [hF, ← hlen, List.drop_left]
  by_cases h : payload.length = n
  · rw [if_pos h, LengthPrefix.settle_of_finished (n := n) (by rw [htake, ha])
      (by rw [List.length_append]; omega), htake, hdrop]
  · rw [if_neg h]
    refine LengthPrefix.settle_of_unfinished (Or.inr ⟨n, by rw [htake, ha], ?_⟩)
    rw [List.length_append]
    omega

/-- Header bytes taken from a chunk are read in the format. -/
theorem scan_headerBlock {F : LengthPrefix UInt8 Status} (hF : F.headerSize = 5)
    {buf bytes : Bytes} {n : Nat} (hlen : buf.length = 5) (hne : bytes ≠ [])
    (hle : n + bytes.length ≤ 5) :
    F.scan (.pending (buf.take n)) bytes = F.settle ((memcpy buf n bytes).take (n + bytes.length)) ∧
      (n + bytes.length < 5 → F.scan (.pending (buf.take n)) bytes =
        (.pending ((memcpy buf n bytes).take (n + bytes.length)), [])) := by
  have hcpy := (memcpy_spec buf bytes n (by omega)).2
  have htn : (buf.take n).length = n := by
    rw [List.length_take]
    omega
  have hscan : F.scan (.pending (buf.take n)) bytes = F.settle (buf.take n ++ bytes) :=
    LengthPrefix.scan_header_block hne (by omega)
  rw [hcpy]
  refine ⟨hscan, fun hlt => ?_⟩
  rw [hscan]
  refine LengthPrefix.settle_of_unfinished (Or.inl ?_)
  rw [List.length_append, htn]
  omega

/-- Payload bytes taken from a chunk are read in the format. -/
theorem scan_payloadBlock {F : LengthPrefix UInt8 Status} (hF : F.headerSize = 5)
    {header payload bytes : Bytes} {n : Nat} (hlen : header.length = 5)
    (ha : F.announce header = .ok n) (hne : bytes ≠ [])
    (hle : (payload ++ bytes).length ≤ n) :
    F.scan (.pending (header ++ payload)) bytes =
      if (payload ++ bytes).length = n then (.pending [], [⟨header, payload ++ bytes⟩])
      else (.pending (header ++ (payload ++ bytes)), []) := by
  rw [← settle_payload hF hlen ha hle, ← List.append_assoc]
  have htake : (header ++ payload).take F.headerSize = header := by
    rw [hF, ← hlen, List.take_left]
  rw [List.length_append] at hle
  refine LengthPrefix.scan_payload_block (n := n) hne ?_ (by rw [htake, ha]) ?_
  · rw [List.length_append]
    omega
  · rw [List.length_append]
    omega

/-- A positive number of bytes is taken from a nonempty chunk. -/
theorem take_block (need : Nat) (chunk : Bytes) (hneed : 0 < need) (hne : chunk ≠ []) :
    0 < min need chunk.length ∧ (chunk.take (min need chunk.length)).length ≤ need ∧
      chunk.take (min need chunk.length) ≠ [] := by
  have hpos : 0 < chunk.length := List.length_pos_iff.2 hne
  have hlen : (chunk.take (min need chunk.length)).length = min need chunk.length := by
    rw [List.length_take]
    omega
  refine ⟨by omega, by omega, List.length_pos_iff.1 (by omega)⟩

namespace StreamingFrameParser

/-- The parser has the limit `m` and is at the unfinished frame `got`. -/
def Represents (m : Nat) (p : StreamingFrameParser) (got : Bytes) : Prop :=
  p.maxMessageSize = m ∧
    ∃ inPayload,
      Holds (serverFormat m) p.headerBuf p.payloadLen p.payload inPayload p.headerBytes got

theorem new_represents (m : Nat) : Represents m (new m) [] :=
  ⟨rfl, false, Holds.header (n := 0) rfl (by decide)⟩

/-- The header branch takes the decision of the format. -/
theorem parseHeader_agrees {m : Nat} {p : StreamingFrameParser} (hm : p.maxMessageSize = m)
    (hlen : p.headerBuf.length = 5) (h5 : p.headerBytes = 5) :
    Agrees (Represents m) ((serverFormat m).settle p.headerBuf) p.parseHeader := by
  rw [settle_header (F := serverFormat m) rfl hlen]
  subst hm
  simp only [parseHeader]
  by_cases hflag : p.headerBuf.getD 0 0 ≠ 0 ∧ p.headerBuf.getD 0 0 ≠ 1
  · have ha : (serverFormat p.maxMessageSize).announce p.headerBuf =
        .error (Status.of .invalidArgument (text "invalid LPM compression flag")) := if_pos hflag
    rw [ha]
    simp only [if_pos hflag]
    exact ⟨rfl, rfl, rfl⟩
  · by_cases hmax : p.maxMessageSize < headerLength p.headerBuf
    · have ha : (serverFormat p.maxMessageSize).announce p.headerBuf =
          .error (Status.of .resourceExhausted (text "message length exceeds limit")) :=
        (if_neg hflag).trans (if_pos hmax)
      rw [ha]
      simp only [if_neg hflag, if_pos hmax]
      exact ⟨rfl, rfl, rfl⟩
    · have ha : (serverFormat p.maxMessageSize).announce p.headerBuf =
          .ok (headerLength p.headerBuf) := (if_neg hflag).trans (if_neg hmax)
      rw [ha]
      simp only [if_neg hflag, if_neg hmax]
      cases hn : headerLength p.headerBuf with
      | zero => exact ⟨rfl, ⟨rfl, false, Holds.header (n := 0) hlen (by omega)⟩, rfl⟩
      | succ n =>
          refine ⟨rfl, ⟨rfl, true, ?_⟩, rfl⟩
          rw [hn] at ha
          have h : Holds (serverFormat p.maxMessageSize) p.headerBuf (n + 1) [] true 5
              (p.headerBuf ++ []) := Holds.payload hlen ha (Nat.succ_pos n)
          simpa [h5] using h

/-- **One iteration reads a block of the chunk in the server's format.** -/
theorem feedIter_agrees {m : Nat} (p : StreamingFrameParser) (got chunk : Bytes)
    (hp : Represents m p got) (hne : chunk ≠ []) :
    ∃ k, 0 < k ∧ (p.feedIter chunk).2 = chunk.drop k ∧
      Agrees (Represents m) ((serverFormat m).scan (.pending got) (chunk.take k))
        (p.feedIter chunk).1 := by
  obtain ⟨hm, inPayload, hholds⟩ := hp
  generalize hhb : p.headerBytes = n at hholds
  cases hholds with
  | header hlen hn =>
      have hneed : sizeSub 5 n = 5 - n := sizeSub_of_le (by omega)
      obtain ⟨hk0, hkle, hkne⟩ := take_block (5 - n) chunk (by omega) hne
      simp only [feedIter]
      rw [hhb, if_pos hn, hneed]
      generalize min (5 - n) chunk.length = k at hk0 hkle hkne
      generalize hbytes : chunk.take k = bytes at hkle hkne
      refine ⟨k, hk0, rfl, ?_⟩
      obtain ⟨hscan, hpart⟩ :=
        scan_headerBlock (F := serverFormat m) (n := n) rfl hlen hkne (by omega)
      have hcpy := (memcpy_spec p.headerBuf bytes n (by omega)).1
      simp only [hbytes, headerBlock, hhb]
      by_cases h5 : n + bytes.length = 5
      · rw [hscan, h5, List.take_of_length_le (by omega)]
        exact parseHeader_agrees (p := ⟨_, memcpy p.headerBuf n bytes, 5, _, _⟩) hm
          (hcpy.trans hlen) rfl
      · rw [hpart (by omega)]
        simp only [if_neg h5]
        exact ⟨rfl, ⟨hm, false, .header (hcpy.trans hlen) (show n + bytes.length < 5 by omega)⟩,
          rfl⟩
  | payload hlen hann hlt =>
      have hneed : sizeSub p.payloadLen p.payload.length = p.payloadLen - p.payload.length :=
        sizeSub_of_le (by omega)
      obtain ⟨hk0, hkle, hkne⟩ := take_block (p.payloadLen - p.payload.length) chunk
        (by omega) hne
      simp only [feedIter]
      rw [hhb, if_neg (by omega), hneed]
      generalize min (p.payloadLen - p.payload.length) chunk.length = k at hk0 hkle hkne
      generalize hbytes : chunk.take k = bytes at hkle hkne
      refine ⟨k, hk0, rfl, ?_⟩
      simp only [hbytes, payloadBlock]
      have hle : (p.payload ++ bytes).length ≤ p.payloadLen := by
        rw [List.length_append]
        omega
      rw [scan_payloadBlock (F := serverFormat m) rfl hlen hann hkne hle]
      by_cases hfull : (p.payload ++ bytes).length = p.payloadLen
      · simp only [if_pos hfull]
        exact ⟨rfl, ⟨hm, false, Holds.header (n := 0) hlen (by omega)⟩, rfl⟩
      · simp only [if_neg hfull]
        refine ⟨rfl, ⟨hm, true, ?_⟩, rfl⟩
        rw [hhb]
        exact .payload hlen hann (Nat.lt_of_le_of_ne hle hfull)

/-- **`Feed` reads the chunk in the server's format.** -/
theorem feed_agrees {m : Nat} {p : StreamingFrameParser} {got : Bytes} (hp : Represents m p got)
    (chunk : Bytes) :
    Agrees (Represents m) ((serverFormat m).scan (.pending got) chunk) (p.feed chunk) :=
  chunkLoop_agrees feedIter_agrees _ p got chunk hp (by omega)

end StreamingFrameParser

namespace LpmReader

/-- The reader is at the unfinished frame `got`. -/
def Represents (m : Nat) (p : LpmReader) (got : Bytes) : Prop :=
  Holds (clientFormat m) p.hdrBuf p.payloadLen p.payloadBuf p.hdrDone p.hdrBytes got

theorem new_represents (m : Nat) : Represents m new [] := Holds.header (n := 0) rfl (by decide)

/-- The header branch takes the decision of the format. -/
theorem parseHeader_agrees {m : Nat} {p : LpmReader} (hlen : p.hdrBuf.length = 5)
    (h5 : p.hdrBytes = 5) :
    Agrees (Represents m) ((clientFormat m).settle p.hdrBuf) (p.parseHeader m) := by
  rw [settle_header (F := clientFormat m) rfl hlen]
  simp only [parseHeader]
  by_cases hmax : m < headerLength p.hdrBuf
  · have ha : (clientFormat m).announce p.hdrBuf =
        .error (Status.of .resourceExhausted (text "received message too large")) := if_pos hmax
    rw [ha]
    simp only [if_pos hmax]
    exact ⟨rfl, rfl, rfl⟩
  · have ha : (clientFormat m).announce p.hdrBuf = .ok (headerLength p.hdrBuf) := if_neg hmax
    rw [ha]
    simp only [if_neg hmax]
    cases hn : headerLength p.hdrBuf with
    | zero => exact ⟨rfl, Holds.header (n := 0) hlen (by omega), rfl⟩
    | succ n =>
        refine ⟨rfl, ?_, rfl⟩
        rw [hn] at ha
        have h : Holds (clientFormat m) p.hdrBuf (n + 1) [] true 5 (p.hdrBuf ++ []) :=
          Holds.payload hlen ha (Nat.succ_pos n)
        simpa [Represents, h5] using h

/-- **One iteration reads a block of the chunk in the client's format.** -/
theorem feedIter_agrees {m : Nat} (p : LpmReader) (got chunk : Bytes) (hp : Represents m p got)
    (hne : chunk ≠ []) :
    ∃ k, 0 < k ∧ (p.feedIter m chunk).2 = chunk.drop k ∧
      Agrees (Represents m) ((clientFormat m).scan (.pending got) (chunk.take k))
        (p.feedIter m chunk).1 := by
  unfold Represents at hp
  generalize hhb : p.hdrBytes = n at hp
  generalize hdone : p.hdrDone = done at hp
  cases hp with
  | header hlen hn =>
      have hneed : sizeSub 5 n = 5 - n := sizeSub_of_le (by omega)
      obtain ⟨hk0, hkle, hkne⟩ := take_block (5 - n) chunk (by omega) hne
      simp only [feedIter]
      rw [hdone, hhb, if_pos (show (!false) = true from rfl), hneed]
      generalize min (5 - n) chunk.length = k at hk0 hkle hkne
      generalize hbytes : chunk.take k = bytes at hkle hkne
      refine ⟨k, hk0, rfl, ?_⟩
      obtain ⟨hscan, hpart⟩ :=
        scan_headerBlock (F := clientFormat m) (n := n) rfl hlen hkne (by omega)
      have hcpy := (memcpy_spec p.hdrBuf bytes n (by omega)).1
      simp only [hbytes, headerBlock, hhb]
      by_cases h5 : n + bytes.length = 5
      · rw [hscan, h5, List.take_of_length_le (by omega)]
        exact parseHeader_agrees (p := ⟨memcpy p.hdrBuf n bytes, 5, _, _, _⟩)
          (hcpy.trans hlen) rfl
      · rw [hpart (by omega)]
        simp only [if_neg h5]
        refine ⟨rfl, ?_, rfl⟩
        simp only [Represents]
        rw [hdone]
        exact .header (hcpy.trans hlen) (show n + bytes.length < 5 by omega)
  | payload hlen hann hlt =>
      -- an unfinished payload is shorter than announced, so that the difference does not wrap
      have hneed : sizeSub p.payloadLen p.payloadBuf.length = p.payloadLen - p.payloadBuf.length :=
        sizeSub_of_le (by omega)
      obtain ⟨hk0, hkle, hkne⟩ := take_block (p.payloadLen - p.payloadBuf.length) chunk
        (by omega) hne
      simp only [feedIter]
      rw [hdone, if_neg (show ¬ (!true) = true by decide), hneed]
      generalize min (p.payloadLen - p.payloadBuf.length) chunk.length = k at hk0 hkle hkne
      generalize hbytes : chunk.take k = bytes at hkle hkne
      refine ⟨k, hk0, rfl, ?_⟩
      simp only [hbytes, payloadBlock]
      have hle : (p.payloadBuf ++ bytes).length ≤ p.payloadLen := by
        rw [List.length_append]
        omega
      rw [scan_payloadBlock (F := clientFormat m) rfl hlen hann hkne hle]
      by_cases hfull : (p.payloadBuf ++ bytes).length = p.payloadLen
      · simp only [if_pos hfull]
        exact ⟨rfl, Holds.header (n := 0) hlen (by omega), rfl⟩
      · simp only [if_neg hfull]
        refine ⟨rfl, ?_, rfl⟩
        simp only [Represents]
        rw [hdone, hhb]
        exact .payload hlen hann (Nat.lt_of_le_of_ne hle hfull)

/-- **The data callback's loop reads the chunk in the client's format.** -/
theorem feed_agrees {m : Nat} {p : LpmReader} {got : Bytes} (hp : Represents m p got)
    (chunk : Bytes) :
    Agrees (Represents m) ((clientFormat m).scan (.pending got) chunk) (p.feed m chunk) :=
  chunkLoop_agrees feedIter_agrees _ p got chunk hp (by omega)

end LpmReader

end Rpcpio.Protocol
