import Rpcpio.Protocol.StreamParsing

/-!
# The grammar of a message stream

`StreamingFrameParser` is fed the chunks of a stream until the first status that is not `OK`
(`feedAll`). What it hands over and where it fails depend on the bytes alone: the payloads of the
complete frames, and the first complete header with a reserved flag or a length over the limit
(`feedAll_grammar`). The buffered payload stays within the limit at every iteration (`Bounded`).
-/

set_option autoImplicit false

namespace Rpcpio.Protocol

open Rpcpio.Library

/-- The code with which a complete header is rejected. -/
def headerError (maxMessageSize : Nat) (header : Bytes) : Option StatusCode :=
  if header.getD 0 0 ≠ 0 ∧ header.getD 0 0 ≠ 1 then some .invalidArgument
  else if maxMessageSize < headerLength header then some .resourceExhausted
  else none

/-- Behind `k` bytes of complete frames stands a complete header with a reserved flag or a length
over the limit. -/
structure InvalidHeaderAt (m : Nat) (bytes : Bytes) (k : Nat) (code : StatusCode) : Prop where
  frames : (serverFormat m).Complete (bytes.take k)
  complete : k + 5 ≤ bytes.length
  invalid : headerError m ((bytes.drop k).take 5) = some code

/-- The codes of invalid headers. -/
theorem InvalidHeaderAt.code {m k : Nat} {bytes : Bytes} {code : StatusCode}
    (h : InvalidHeaderAt m bytes k code) :
    code = .invalidArgument ∨ code = .resourceExhausted := by
  have hinvalid := h.invalid
  simp only [headerError] at hinvalid
  split at hinvalid
  · cases hinvalid
    exact Or.inl rfl
  · split at hinvalid
    · cases hinvalid
      exact Or.inr rfl
    · cases hinvalid

/-- An invalid header is one that the server's format rejects, with that code. -/
theorem invalidHeaderAt_iff {m k : Nat} {bytes : Bytes} {code : StatusCode} :
    InvalidHeaderAt m bytes k code ↔
      ∃ e : Status, e.code = code ∧ (serverFormat m).RejectedAt bytes k e := by
  have hcode : ∀ header : Bytes, headerError m header = some code ↔
      ∃ e : Status, e.code = code ∧ (serverFormat m).announce header = .error e := by
    intro header
    simp only [headerError, serverFormat]
    split
    · simp [Status.of]
    · split <;> simp [Status.of]
  constructor
  · rintro ⟨hframes, hlen, hinvalid⟩
    obtain ⟨e, he, hann⟩ := (hcode _).1 hinvalid
    exact ⟨e, he, hframes, hlen, hann⟩
  · rintro ⟨e, he, hframes, hlen, hann⟩
    exact ⟨hframes, hlen, (hcode _).2 ⟨e, he, hann⟩⟩

namespace StreamingFrameParser

/-- `Feed` on one chunk after the other, until a status is not `OK`. -/
def feedAll : StreamingFrameParser → List Bytes → FeedResult StreamingFrameParser
  | p, [] => ⟨p, [], Status.okStatus⟩
  | p, chunk :: chunks =>
      let r := p.feed chunk
      -- the callers end the stream at the first status that is not `OK`
      if r.status.isOk then
        let t := r.parser.feedAll chunks
        ⟨t.parser, r.messages ++ t.messages, t.status⟩
      else r

/-- **The chunks are read as their concatenation**, in the server's format. -/
theorem feedAll_agrees {m : Nat} {p : StreamingFrameParser} {got : Bytes}
    (hp : Represents m p got) (chunks : List Bytes) :
    Agrees (Represents m) ((serverFormat m).scan (.pending got) chunks.flatten)
      (p.feedAll chunks) := by
  -- on the chunks, for any bytes of an unfinished frame
  induction chunks generalizing p got with
  | nil => exact ⟨rfl, hp, rfl⟩
  | cons chunk chunks ih =>
      obtain ⟨hmsgs, hout⟩ := feed_agrees hp chunk
      rw [List.flatten_cons, LengthPrefix.scan_append]
      simp only [feedAll]
      cases hscan : ((serverFormat m).scan (.pending got) chunk).1 with
      | pending rest =>
          rw [hscan] at hout
          obtain ⟨htmsgs, htout⟩ := ih hout.1
          rw [hout.2, if_pos Status.isOk_okStatus]
          refine ⟨?_, htout⟩
          simp only [hmsgs, htmsgs, List.map_append]
      -- the rest of the chunks is not fed, and the format reads nothing of it
      | rejected e =>
          rw [hscan] at hout
          have hbad : (p.feed chunk).status.isOk = false := by rw [hout.1, hout.2]
          rw [hbad, if_neg Bool.false_ne_true, LengthPrefix.scan_rejected]
          refine ⟨?_, hout⟩
          simp only [hmsgs, List.append_nil]

/-! ## The buffered payload -/

/-- Between two iterations without an error: nothing is buffered before the header is complete, and
less than the announced payload after it. -/
structure Bounded (m : Nat) (p : StreamingFrameParser) : Prop where
  limit : p.maxMessageSize = m
  header : p.headerBytes < 5 → p.payload = []
  payload : 5 ≤ p.headerBytes → p.payload.length < p.payloadLen ∧ p.payloadLen ≤ m

theorem Bounded.le {m : Nat} {p : StreamingFrameParser} (h : Bounded m p) :
    p.payload.length ≤ m := by
  by_cases hn : p.headerBytes < 5
  · rw [h.header hn]
    exact Nat.zero_le _
  · obtain ⟨hlt, hle⟩ := h.payload (by omega)
    omega

theorem new_bounded (m : Nat) : Bounded m (new m) :=
  ⟨rfl, fun _ => rfl, fun h => absurd h (by simp [new])⟩

/-- What a step of the parser owes: the bound unless it fails, and the limit in any case. -/
def KeepsBound (m : Nat) (r : FeedResult StreamingFrameParser) : Prop :=
  (r.status.isOk = true → Bounded m r.parser) ∧ r.parser.payload.length ≤ m ∧
    ∀ msg ∈ r.messages, msg.length ≤ m

/-- The header branch accepts a length within the limit. -/
theorem parseHeader_bounded {m : Nat} {p : StreamingFrameParser} (hm : p.maxMessageSize = m)
    (hempty : p.payload = []) (h5 : p.headerBytes = 5) : KeepsBound m p.parseHeader := by
  subst hm
  simp only [parseHeader]
  split
  · exact ⟨(by intro h; cases h), by simp [hempty], by simp⟩
  · split
    · exact ⟨(by intro h; cases h), by simp [hempty], by simp⟩
    · rename_i hlimit
      -- a frame of length zero is handed over at once
      split
      · exact ⟨fun _ => ⟨rfl, fun _ => rfl, fun h => absurd h (by simp)⟩, by simp, by simp⟩
      · rename_i hpos
        refine ⟨fun _ => ⟨rfl, fun h => absurd h (by simp [h5]), fun _ => ?_⟩, by simp, by simp⟩
        exact ⟨Nat.pos_of_ne_zero hpos, Nat.not_lt.1 hlimit⟩

/-- An iteration keeps the bound, and leaves the buffer within the limit in any case. -/
theorem feedIter_bounded {m : Nat} {p : StreamingFrameParser} (h : Bounded m p) (chunk : Bytes) :
    KeepsBound m (p.feedIter chunk).1 := by
  simp only [feedIter]
  -- the two blocks of an iteration: only one of them gets bytes
  by_cases hn : p.headerBytes < 5
  · rw [if_pos hn, sizeSub_of_le (by omega)]
    have htake : (chunk.take (min (5 - p.headerBytes) chunk.length)).length ≤
        5 - p.headerBytes := by
      rw [List.length_take]
      omega
    generalize chunk.take (min (5 - p.headerBytes) chunk.length) = bytes at htake
    simp only [headerBlock]
    split
    · rename_i h5
      exact parseHeader_bounded h.limit (h.header hn) h5
    · rename_i h5
      have hlt : p.headerBytes + bytes.length < 5 := by omega
      refine ⟨fun _ => ⟨h.limit, fun _ => h.header hn, fun hge => ?_⟩, ?_, by simp⟩
      · exact absurd hlt (Nat.not_lt.2 hge)
      · simp [h.header hn]
  · obtain ⟨hlt, hle⟩ := h.payload (by omega)
    rw [if_neg hn, sizeSub_of_le (by omega)]
    have htake : (chunk.take (min (p.payloadLen - p.payload.length) chunk.length)).length ≤
        p.payloadLen - p.payload.length := by
      rw [List.length_take]
      omega
    generalize chunk.take (min (p.payloadLen - p.payload.length) chunk.length) = bytes at htake
    -- at most the missing bytes of the payload are appended
    have hgrown : (p.payload ++ bytes).length ≤ p.payloadLen := by
      rw [List.length_append]
      omega
    simp only [payloadBlock]
    split
    · refine ⟨fun _ => ⟨h.limit, fun _ => rfl, fun hge => absurd hge (by simp)⟩, by simp, ?_⟩
      intro msg hmsg
      rw [List.mem_singleton.1 hmsg]
      omega
    · rename_i hfull
      refine ⟨fun _ => ⟨h.limit, fun hlt => absurd hlt hn, fun _ => ?_⟩, ?_, by simp⟩
      · exact ⟨Nat.lt_of_le_of_ne hgrown hfull, hle⟩
      · exact hgrown.trans hle

/-- **Any number of iterations** of the loop keeps the bound. -/
theorem chunkLoop_bounded {m : Nat} :
    ∀ (n : Nat) {p : StreamingFrameParser} (_ : Bounded m p) (chunk : Bytes),
      KeepsBound m (chunkLoop feedIter n p chunk)
  | 0, p, h, chunk => ⟨fun _ => h, h.le, by simp [chunkLoop]⟩
  | n + 1, p, h, chunk => by
      simp only [chunkLoop]
      split
      · exact ⟨fun _ => h, h.le, by simp⟩
      · have hiter := feedIter_bounded h chunk
        split
        -- the iteration went on, and the rest of the loop starts with a bounded parser
        · rename_i hok
          obtain ⟨hkeep, hle, hmsgs⟩ := chunkLoop_bounded n (hiter.1 hok) (p.feedIter chunk).2
          refine ⟨hkeep, hle, fun msg hmsg => ?_⟩
          rcases List.mem_append.1 hmsg with hmem | hmem
          · exact hiter.2.2 msg hmem
          · exact hmsgs msg hmem
        · exact hiter

theorem feedAll_bounded {m : Nat} {p : StreamingFrameParser} (h : Bounded m p)
    (chunks : List Bytes) : KeepsBound m (p.feedAll chunks) := by
  induction chunks generalizing p with
  | nil => exact ⟨fun _ => h, h.le, by simp [feedAll]⟩
  | cons chunk chunks ih =>
      have hfeed := chunkLoop_bounded (2 * chunk.length) h chunk
      simp only [feedAll]
      split
      · rename_i hok
        obtain ⟨hkeep, hle, hmsgs⟩ := ih (hfeed.1 hok)
        refine ⟨hkeep, hle, fun msg hmsg => ?_⟩
        rcases List.mem_append.1 hmsg with hmem | hmem
        · exact hfeed.2.2 msg hmem
        · exact hmsgs msg hmem
      · exact hfeed

/-- A parser is between frames exactly if it holds no byte of an unfinished one. -/
theorem betweenFrames_iff {m : Nat} {p : StreamingFrameParser} {got : Bytes} (h : Bounded m p)
    (hp : Represents m p got) : p.betweenFrames = true ↔ got = [] := by
  obtain ⟨_, inPayload, hholds⟩ := hp
  generalize hn : p.headerBytes = n at hholds
  simp only [betweenFrames, hn, decide_eq_true_eq]
  cases hholds with
  -- a header is begun as soon as a byte is there
  | header hlen hlt =>
      have hpayload := h.header (by omega)
      constructor
      · rintro ⟨rfl, _⟩
        rfl
      · intro hnil
        have hzero := congrArg List.length hnil
        rw [List.length_take, hlen, List.length_nil] at hzero
        exact ⟨by omega, hpayload⟩
  -- a payload is awaited only behind a complete header
  | payload hlen hann hlt =>
      constructor
      · rintro ⟨hzero, _⟩
        cases hzero
      · intro hnil
        have hbuf := (List.append_eq_nil_iff.1 hnil).1
        rw [hbuf] at hlen
        cases hlen

/-! ## The grammar -/

/-- What the chunks leave: `OK` and the unfinished frame, or the code of the invalid header. -/
theorem feedAll_status (m : Nat) (chunks : List Bytes) :
    match (serverFormat m).scan (.pending []) chunks.flatten with
    | (.pending got, _) => ((new m).feedAll chunks).status = Status.okStatus ∧
        Represents m ((new m).feedAll chunks).parser got ∧
        ∀ k code, ¬ InvalidHeaderAt m chunks.flatten k code
    | (.rejected e, fs) => ((new m).feedAll chunks).status = e ∧ e.isOk = false ∧
        InvalidHeaderAt m chunks.flatten (fs.map LengthPrefix.Frame.symbols).flatten.length
          e.code := by
  obtain ⟨_, hout⟩ := feedAll_agrees (new_represents m) chunks
  cases hscan : (serverFormat m).scan (.pending []) chunks.flatten with
  | mk state fs =>
      rw [hscan] at hout
      cases state with
      | pending got =>
          refine ⟨hout.2, hout.1, fun k code hbad => ?_⟩
          obtain ⟨e, _, hrejected⟩ := invalidHeaderAt_iff.1 hbad
          obtain ⟨fs', hscan', _⟩ := LengthPrefix.rejectedAt_iff.1 hrejected
          -- the scan of a rejected header does not stay pending
          rw [hscan] at hscan'
          cases hscan'
      | rejected e =>
          refine ⟨hout.1, hout.2, ?_⟩
          exact invalidHeaderAt_iff.2 ⟨e, rfl, LengthPrefix.rejectedAt_iff.2 ⟨fs, hscan, rfl⟩⟩

/-- The status is `OK` exactly if no header in frame position is invalid. -/
theorem feedAll_isOk_iff (m : Nat) (chunks : List Bytes) :
    ((new m).feedAll chunks).status.isOk = true ↔
      ∀ k code, ¬ InvalidHeaderAt m chunks.flatten k code := by
  have hstatus := feedAll_status m chunks
  cases hscan : (serverFormat m).scan (.pending []) chunks.flatten with
  | mk state fs =>
      rw [hscan] at hstatus
      cases state with
      | pending got =>
          rw [hstatus.1]
          exact ⟨fun _ => hstatus.2.2, fun _ => rfl⟩
      | rejected e =>
          rw [hstatus.1, hstatus.2.1]
          exact ⟨(by intro h; cases h), fun h => absurd hstatus.2.2 (h _ _)⟩

/-- An invalid header gives its code. -/
theorem feedAll_code {m k : Nat} {chunks : List Bytes} {code : StatusCode}
    (h : InvalidHeaderAt m chunks.flatten k code) :
    ((new m).feedAll chunks).status.code = code := by
  obtain ⟨e, hcode, hrejected⟩ := invalidHeaderAt_iff.1 h
  obtain ⟨fs, hscan, _⟩ := LengthPrefix.rejectedAt_iff.1 hrejected
  have hstatus := feedAll_status m chunks
  rw [hscan] at hstatus
  rw [hstatus.1, hcode]

/-- A parser without an error has read the frames that the format has. -/
theorem feedAll_pending {m : Nat} {chunks : List Bytes}
    (hok : ((new m).feedAll chunks).status.isOk = true) :
    ∃ got fs, (serverFormat m).scan (.pending []) chunks.flatten = (.pending got, fs) ∧
      Represents m ((new m).feedAll chunks).parser got := by
  have hstatus := feedAll_status m chunks
  cases hscan : (serverFormat m).scan (.pending []) chunks.flatten with
  | mk state fs =>
      rw [hscan] at hstatus
      cases state with
      | rejected e =>
          rw [hstatus.1, hstatus.2.1] at hok
          cases hok
      | pending got => exact ⟨got, fs, rfl, hstatus.2.1⟩

/-- Chunks that end before the fifth byte of an invalid header are accepted. -/
theorem feedAll_before {m k : Nat} {pre : List Bytes} {chunk : Bytes} {e : Status}
    (hread : (serverFormat m).RejectedAt (pre.flatten ++ chunk) k e)
    (hbefore : pre.flatten.length < k + 5) : ((new m).feedAll pre).status.isOk = true := by
  apply (feedAll_isOk_iff m pre).2
  intro k' code' hbad
  -- an invalid header of a prefix is invalid in the whole, and there is only one
  obtain ⟨e', _, hrejected⟩ := invalidHeaderAt_iff.1 hbad
  have hlen := hrejected.header
  have hk := (((LengthPrefix.rejectedAt_append hlen chunk).2 hrejected).unique hread).1
  have hsize : (serverFormat m).headerSize = 5 := rfl
  rw [hsize] at hlen
  omega

/-- The chunk with the fifth byte of an invalid header fails with its code. -/
theorem feedAll_chunk {m k : Nat} {pre post : List Bytes} {chunk : Bytes} {code : StatusCode}
    (h : InvalidHeaderAt m (pre ++ chunk :: post).flatten k code)
    (hbefore : pre.flatten.length < k + 5) (hafter : k + 5 ≤ pre.flatten.length + chunk.length) :
    ((new m).feedAll pre).status.isOk = true ∧
      (((new m).feedAll pre).parser.feed chunk).status.code = code := by
  obtain ⟨e, hcode, hrejected⟩ := invalidHeaderAt_iff.1 h
  -- the header ends in the chunk
  have hread : (serverFormat m).RejectedAt (pre.flatten ++ chunk) k e := by
    have hwhole : (pre ++ chunk :: post).flatten = (pre.flatten ++ chunk) ++ post.flatten := by
      simp
    rw [hwhole] at hrejected
    apply (LengthPrefix.rejectedAt_append _ _).1 hrejected
    rw [List.length_append]
    exact hafter
  have hok := feedAll_before hread hbefore
  -- the parser after `pre` represents what the format has pending there
  obtain ⟨got, fs, hscan, hrep⟩ := feedAll_pending hok
  obtain ⟨_, hout⟩ := feed_agrees hrep chunk
  obtain ⟨fs', hscan', _⟩ := LengthPrefix.rejectedAt_iff.1 hread
  rw [LengthPrefix.scan_append, hscan] at hscan'
  have hfirst := congrArg Prod.fst hscan'
  simp only at hfirst
  rw [hfirst] at hout
  exact ⟨hok, by rw [hout.1, hcode]⟩

/-- Without an error the parser is between frames exactly after complete frames. -/
theorem feedAll_betweenFrames {m : Nat} {chunks : List Bytes}
    (hok : ((new m).feedAll chunks).status.isOk = true) :
    ((new m).feedAll chunks).parser.betweenFrames = true ↔
      (serverFormat m).Complete chunks.flatten := by
  obtain ⟨got, fs, hscan, hrep⟩ := feedAll_pending hok
  have hbounded := (feedAll_bounded (new_bounded m) chunks).1 hok
  rw [LengthPrefix.complete_iff, hscan, betweenFrames_iff hbounded hrep]
  constructor
  · rintro rfl
    exact ⟨fs, rfl⟩
  · rintro ⟨fs', hfs'⟩
    cases hfs'
    rfl

/-- **The parser follows the grammar, whatever the chunks.** Handed over are the payloads of the
complete frames; every chunk is accepted exactly if no header is invalid, and otherwise the chunk
with the fifth byte of the invalid header fails with its code; without an error, the parser is
between frames exactly after complete frames; and the buffer stays within the limit, after any
number `n` of iterations. -/
theorem feedAll_grammar (m : Nat) (chunks : List Bytes) :
    (∃ fs rest, (serverFormat m).Splits chunks.flatten fs rest) ∧
    (∀ fs rest, (serverFormat m).Splits chunks.flatten fs rest →
      ((new m).feedAll chunks).messages = fs.map LengthPrefix.Frame.payload) ∧
    (((new m).feedAll chunks).status.isOk = true ↔
      ∀ k code, ¬ InvalidHeaderAt m chunks.flatten k code) ∧
    (∀ k code, InvalidHeaderAt m chunks.flatten k code →
      (code = .invalidArgument ∨ code = .resourceExhausted) ∧
      ((new m).feedAll chunks).status.code = code ∧
      ∀ pre chunk post, chunks = pre ++ chunk :: post → pre.flatten.length < k + 5 →
        k + 5 ≤ pre.flatten.length + chunk.length →
          ((new m).feedAll pre).status.isOk = true ∧
            (((new m).feedAll pre).parser.feed chunk).status.code = code) ∧
    (((new m).feedAll chunks).status.isOk = true →
      (((new m).feedAll chunks).parser.betweenFrames = true ↔
        (serverFormat m).Complete chunks.flatten) ∧
      ∀ chunk n, (chunkLoop feedIter n ((new m).feedAll chunks).parser chunk).parser.payload.length
        ≤ m) ∧
    ((new m).feedAll chunks).parser.payload.length ≤ m := by
  have hbounded := feedAll_bounded (new_bounded m) chunks
  refine ⟨LengthPrefix.exists_splits _, fun fs rest hsplits => ?_, feedAll_isOk_iff m chunks,
    fun k code hbad => ⟨hbad.code, feedAll_code hbad, ?_⟩,
    fun hok => ⟨feedAll_betweenFrames hok, fun chunk n => ?_⟩, hbounded.2.1⟩
  · rw [(feedAll_agrees (new_represents m) chunks).1, hsplits.scan]
  · rintro pre chunk post rfl hbefore hafter
    exact feedAll_chunk hbad hbefore hafter
  · exact (chunkLoop_bounded n (hbounded.1 hok) chunk).2.1

end StreamingFrameParser

end Rpcpio.Protocol
