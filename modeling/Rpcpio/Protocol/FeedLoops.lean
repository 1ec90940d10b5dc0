import Rpcpio.Library.Loop
import Rpcpio.Protocol.FrameDecoding

/-!
# The parsing loops end

`FrameDecoder::Feed`, `StreamingFrameParser::Feed` and the data callbacks of the streaming client
calls are `while` loops over a chunk. `FrameDecoder.feedWhile` and `chunkWhile` are these loops with
no bound on their iterations. From every state that earlier calls leave, each of them ends with what
`feed` computes, and before every iteration the two subtractions for `need` do not wrap:

* `FrameDecoder.feed_completes`, after any uses of the decoder;
* `StreamingFrameParser.feed_completes`, after any calls of `Feed`, also those that failed;
* `LpmReader.feed_completes`, after any data callbacks.

An iteration of `StreamingFrameParser` may take no byte: a call that rejected a compression flag
leaves five header bytes and no payload to come (`StreamingFrameParser.Stalled`). The iteration
after it takes one, so such an iteration is made once in a call at most.
-/

set_option autoImplicit false

namespace Rpcpio.Protocol

open Rpcpio.Library

/-- The counters of a parser before an iteration: neither `need` wraps around. -/
structure NeedsFit (headerBytes payloadLen : Nat) (payload : Bytes) : Prop where
  headerFits : headerBytes ≤ 5
  payloadFits : payload.length ≤ payloadLen
  headerNeed : sizeSub 5 headerBytes + headerBytes = 5
  payloadNeed : sizeSub payloadLen payload.length + payload.length = payloadLen

theorem needsFit_of_le {headerBytes payloadLen : Nat} {payload : Bytes} (hheader : headerBytes ≤ 5)
    (hpayload : payload.length ≤ payloadLen) : NeedsFit headerBytes payloadLen payload := by
  refine ⟨hheader, hpayload, ?_, ?_⟩
  · rw [sizeSub_of_le hheader]
    exact Nat.sub_add_cancel hheader
  · rw [sizeSub_of_le hpayload]
    exact Nat.sub_add_cancel hpayload

/-- Taking some bytes of a chunk leaves fewer. -/
theorem length_drop_take_lt (need : Nat) {chunk : Bytes} (hneed : 0 < need) (hne : chunk ≠ []) :
    (chunk.drop (min need chunk.length)).length < chunk.length := by
  have hpos := List.length_pos_iff.2 hne
  rw [List.length_drop]
  omega

/-! ## The decoder of unary messages -/

namespace FrameDecoder

/-- The loop of `Feed`: the decoder and the rest of the chunk, or the decoder when it returns. -/
def feedWhile : Loop (FrameDecoder × Bytes) FrameDecoder where
  body s :=
    if s.2.isEmpty then .inr s.1
    else
      match s.1.feedIter s.2 with
      | (d, _, true) => .inr d
      | (d, rest, false) => .inl (d, rest)

/-- What every use leaves of the counters. -/
structure Counted (m : Nat) (d : FrameDecoder) : Prop extends Kept m d where
  room : d.headerBytes ≤ 5
  empty : d.state = .awaitingHeader → d.payload = []
  announced : d.payload.length ≤ d.payloadLen

theorem counted_new (m : Nat) : Counted m (new m) :=
  ⟨kept_new m, Nat.zero_le 5, fun _ => rfl, Nat.le_refl 0⟩

theorem Counted.setError {m : Nat} {d : FrameDecoder} (h : Counted m d) (msg : Bytes) :
    Counted m (d.setError msg) :=
  ⟨h.toKept.setError msg, h.room, (by intro hs; cases hs), h.announced⟩

@[simp] theorem tryParseHeader_headerBytes (d : FrameDecoder) :
    d.tryParseHeader.headerBytes = d.headerBytes := by
  simp only [tryParseHeader]
  split
  · rfl
  · split
    · rfl
    · split
      · rfl
      · split <;> rfl

theorem tryParseHeader_payload {d : FrameDecoder} (h : d.payload = []) :
    d.tryParseHeader.payload = [] := by
  simp only [tryParseHeader]
  split
  · exact h
  · split
    · exact h
    · split
      · exact h
      · split <;> rfl

/-- **One iteration** keeps the counters, and takes a byte unless it returns. -/
theorem Counted.feedIter {m : Nat} {d : FrameDecoder} (h : Counted m d) (chunk : Bytes)
    (hne : chunk ≠ []) :
    Counted m (d.feedIter chunk).1 ∧
      ((d.feedIter chunk).2.2 = false → (d.feedIter chunk).2.1.length < chunk.length) := by
  have hkept := h.toKept.feedIter chunk
  cases hstate : d.state with
  | awaitingHeader =>
      -- the header is not complete, so that the block has a byte at least
      have hn := h.header hstate
      rw [feedIter_headerBlock hstate hn] at hkept ⊢
      have hnil := tryParseHeader_payload (d := { d with
        headerBuf := memcpy d.headerBuf d.headerBytes
          (chunk.take (min (5 - d.headerBytes) chunk.length))
        headerBytes := d.headerBytes + min (5 - d.headerBytes) chunk.length }) (h.empty hstate)
      refine ⟨⟨hkept, ?_, fun _ => hnil, ?_⟩, fun _ => ?_⟩
      · rw [tryParseHeader_headerBytes]
        show d.headerBytes + min (5 - d.headerBytes) chunk.length ≤ 5
        omega
      · rw [hnil]
        exact Nat.zero_le _
      · exact length_drop_take_lt _ (by omega) hne
  | awaitingPayload =>
      obtain ⟨hlt, _⟩ := h.payload hstate
      have hneed : sizeSub d.payloadLen d.payload.length = d.payloadLen - d.payload.length :=
        sizeSub_of_le (by omega)
      have hgrown : (d.payload ++ chunk.take (min (d.payloadLen - d.payload.length)
          chunk.length)).length ≤ d.payloadLen := by
        rw [List.length_append, List.length_take]
        omega
      have hless := length_drop_take_lt (d.payloadLen - d.payload.length) (by omega) hne
      simp only [FrameDecoder.feedIter, hstate, hneed] at hkept ⊢
      split at hkept
      · rename_i hfull
        rw [if_pos hfull]
        split at hkept
        · rename_i hend
          rw [if_pos hend]
          exact ⟨⟨hkept, h.room, (by intro hs; cases hs), hgrown⟩, fun _ => hless⟩
        · rename_i hmore
          rw [if_neg hmore]
          exact ⟨⟨hkept, h.room, (by intro hs; cases hs), hgrown⟩, (by intro hs; cases hs)⟩
      · rename_i hpart
        rw [if_neg hpart]
        exact ⟨⟨hkept, h.room, (by intro hs; cases hs), hgrown⟩, fun _ => hless⟩
  | done =>
      -- bytes behind the message make the loop return
      simp only [FrameDecoder.feedIter, hstate]
      exact ⟨h.setError _, (by intro hs; cases hs)⟩
  | error =>
      simp only [FrameDecoder.feedIter, hstate]
      exact ⟨h, (by intro hs; cases hs)⟩

/-- A pass on a chunk that is not empty. -/
theorem feedWhile_body {d : FrameDecoder} {chunk : Bytes} (hne : chunk ≠ []) :
    feedWhile.body (d, chunk) =
      if (d.feedIter chunk).2.2 then .inr (d.feedIter chunk).1
      else .inl ((d.feedIter chunk).1, (d.feedIter chunk).2.1) := by
  have hemp : chunk.isEmpty = false := by simpa using hne
  simp only [feedWhile, hemp, Bool.false_eq_true, if_false]
  rcases d.feedIter chunk with ⟨d', rest, _ | _⟩ <;> rfl

/-- The same pass of `feedLoop`. -/
theorem feedLoop_succ {d : FrameDecoder} {chunk : Bytes} (hne : chunk ≠ []) (n : Nat) :
    d.feedLoop (n + 1) chunk =
      if (d.feedIter chunk).2.2 then (d.feedIter chunk).1
      else feedLoop n (d.feedIter chunk).1 (d.feedIter chunk).2.1 := by
  have hemp : chunk.isEmpty = false := by simpa using hne
  simp only [feedLoop, hemp, Bool.false_eq_true, if_false]
  rcases d.feedIter chunk with ⟨d', rest, _ | _⟩ <;> rfl

theorem feedWhile_body_nil (d : FrameDecoder) : feedWhile.body (d, []) = .inr d := rfl

/-- A pass of the loop keeps the counters, in the state that it leaves or returns, and takes a byte
unless it returns. -/
theorem Counted.pass {m : Nat} {s : FrameDecoder × Bytes} (h : Counted m s.1) :
    (∀ t, feedWhile.body s = .inl t → Counted m t.1 ∧ t.2.length < s.2.length) ∧
      ∀ d, feedWhile.body s = .inr d → Counted m d := by
  obtain ⟨d, chunk⟩ := s
  by_cases hne : chunk = []
  · subst hne
    rw [feedWhile_body_nil]
    constructor
    · intro t hbody
      cases hbody
    · intro d' hbody
      exact Sum.inr.inj hbody ▸ h
  · obtain ⟨hkeep, hless⟩ := h.feedIter chunk hne
    rw [feedWhile_body hne]
    cases hret : (d.feedIter chunk).2.2 with
    | true =>
        constructor
        · intro t hbody
          cases hbody
        · intro d' hbody
          exact Sum.inr.inj hbody ▸ hkeep
    | false =>
        constructor
        · intro t hbody
          cases hbody
          exact ⟨hkeep, hless hret⟩
        · intro d' hbody
          cases hbody

/-- A number of passes that suffices is a bound that suffices. -/
theorem feedLoop_of_run {n : Nat} {d d' : FrameDecoder} {chunk : Bytes}
    (h : feedWhile.run n (d, chunk) = some d') : d.feedLoop n chunk = d' := by
  induction n generalizing d chunk with
  | zero => cases h
  | succ n ih =>
      by_cases hne : chunk = []
      · subst hne
        rw [Loop.run_succ_of_result (feedWhile_body_nil d), Option.some.injEq] at h
        exact h
      · have hbody := feedWhile_body (d := d) hne
        rw [feedLoop_succ hne]
        cases hret : (d.feedIter chunk).2.2 with
        | true =>
            rw [hret, if_pos rfl] at hbody
            rw [Loop.run_succ_of_result hbody, Option.some.injEq] at h
            exact h
        | false =>
            rw [hret, if_neg Bool.false_ne_true] at hbody
            rw [Loop.run_succ_of_next hbody] at h
            exact ih h

/-- The loop ends with what `feed` computes. -/
theorem Counted.returns {m : Nat} {d : FrameDecoder} (h : Counted m d) (chunk : Bytes) :
    feedWhile.Returns (d, chunk) (d.feed chunk) := by
  obtain ⟨d', hrun⟩ := Loop.run_of_measure (L := feedWhile) (I := fun s => Counted m s.1)
    (μ := fun s => s.2.length) (fun _ t hs hbody => hs.pass.1 t hbody) (s := (d, chunk)) h
    (show chunk.length < 2 * chunk.length + 1 by omega)
  refine ⟨_, hrun.trans (congrArg some ?_)⟩
  rw [← feedLoop_of_run hrun, feed]
  split
  · rename_i herr
    -- `Feed` returns before the loop, and the loop would change nothing
    have hstate : d.state = .error := by simpa [isError] using herr
    simp only [feedLoop, FrameDecoder.feedIter, hstate]
    split <;> rfl
  · rfl

/-- **Every use keeps the counters.** -/
theorem Counted.apply {m : Nat} {d : FrameDecoder} (h : Counted m d) (e : Use) :
    Counted m (d.apply e) := by
  cases e with
  | feed chunk =>
      -- the result is that of a pass from a state that the loop comes to
      obtain ⟨t, hreach, ht⟩ := Loop.returns_iff.1 (h.returns chunk)
      have hcount : Counted m t.1 := Loop.reaches_invariant (I := fun s => Counted m s.1)
        (fun _ t hs hbody => (hs.pass.1 t hbody).1) hreach h
      exact hcount.pass.2 _ ht
  | markEos =>
      simp only [FrameDecoder.apply, FrameDecoder.markEos]
      split
      · exact h
      · split
        · exact h
        · exact h.setError _
  | takePayload =>
      exact ⟨h.toKept.apply .takePayload, h.room, fun _ => rfl, Nat.zero_le _⟩
  | reset => exact ⟨h.toKept.apply .reset, Nat.zero_le 5, fun _ => rfl, Nat.le_refl 0⟩

theorem Counted.foldl {m : Nat} {d : FrameDecoder} (h : Counted m d) (uses : List Use) :
    Counted m (uses.foldl FrameDecoder.apply d) := by
  induction uses generalizing d with
  | nil => exact h
  | cons e uses ih => exact ih (h.apply e)

/-- **`Feed` of the decoder ends**, after any uses, with at most one iteration for each byte. -/
theorem feed_completes (m : Nat) (uses : List Use) (chunk : Bytes) :
    feedWhile.Completes (fun s => NeedsFit s.1.headerBytes s.1.payloadLen s.1.payload)
      (chunk.length + 1) (uses.foldl apply (new m), chunk)
      ((uses.foldl apply (new m)).feed chunk) := by
  have hstart := (counted_new m).foldl uses
  exact Loop.completes_of_measure (I := fun s => Counted m s.1) (μ := fun s => s.2.length)
    (fun _ t hs hbody => hs.pass.1 t hbody) (fun _ hs => needsFit_of_le hs.room hs.announced)
    hstart (Nat.lt_succ_self _) (hstart.returns chunk)

end FrameDecoder

/-! ## The loops over a chunk -/

/-- Where a loop over a chunk is: the parser, the payloads handed to the callback and the rest. -/
structure ChunkState (π : Type) where
  parser : π
  messages : List Bytes
  rest : Bytes

/-- `while` the chunk is not empty: an iteration, and a return if its status is not `OK`. -/
def chunkWhile {π : Type} (iter : π → Bytes → FeedResult π × Bytes) :
    Loop (ChunkState π) (FeedResult π) where
  body s :=
    if s.rest.isEmpty then .inr ⟨s.parser, s.messages, Status.okStatus⟩
    else
      let r := iter s.parser s.rest
      if r.1.status.isOk then .inl ⟨r.1.parser, s.messages ++ r.1.messages, r.2⟩
      else .inr ⟨r.1.parser, s.messages ++ r.1.messages, r.1.status⟩

section

variable {π : Type} {iter : π → Bytes → FeedResult π × Bytes} {I : π → Prop} {extra : π → Nat}

/-- What the loops need of an iteration: it keeps `I`, also when it fails, and otherwise it takes a
byte or uses up what `extra` allows. -/
def Advances (iter : π → Bytes → FeedResult π × Bytes) (I : π → Prop) (extra : π → Nat) : Prop :=
  ∀ p chunk, I p → chunk ≠ [] →
    I (iter p chunk).1.parser ∧
      ((iter p chunk).1.status.isOk = true →
        (iter p chunk).2.length + extra (iter p chunk).1.parser < chunk.length + extra p)

theorem chunkWhile_body_nil (p : π) (messages : List Bytes) :
    (chunkWhile iter).body ⟨p, messages, []⟩ = .inr ⟨p, messages, Status.okStatus⟩ := rfl

/-- A pass on a chunk that is not empty. -/
theorem chunkWhile_body (iter : π → Bytes → FeedResult π × Bytes) (p : π) (messages : List Bytes)
    {chunk : Bytes} (hne : chunk ≠ []) :
    (chunkWhile iter).body ⟨p, messages, chunk⟩ =
      if (iter p chunk).1.status.isOk then
        .inl ⟨(iter p chunk).1.parser, messages ++ (iter p chunk).1.messages, (iter p chunk).2⟩
      else
        .inr ⟨(iter p chunk).1.parser, messages ++ (iter p chunk).1.messages,
          (iter p chunk).1.status⟩ := by
  have hemp : chunk.isEmpty = false := by simpa using hne
  simp only [chunkWhile, hemp, Bool.false_eq_true, if_false]

/-- A pass of the loop. -/
theorem Advances.pass (h : Advances iter I extra) {s t : ChunkState π} (hs : I s.parser)
    (hbody : (chunkWhile iter).body s = .inl t) :
    I t.parser ∧ t.rest.length + extra t.parser < s.rest.length + extra s.parser := by
  obtain ⟨p, messages, chunk⟩ := s
  by_cases hne : chunk = []
  · subst hne
    cases hbody
  · obtain ⟨hkeep, hless⟩ := h p chunk hs hne
    rw [chunkWhile_body iter p messages hne] at hbody
    split at hbody
    · rename_i hok
      cases hbody
      exact ⟨hkeep, hless hok⟩
    · cases hbody

/-- The parser that a call leaves, whatever its status. -/
theorem Advances.keeps (h : Advances iter I extra) :
    ∀ (fuel : Nat) (p : π) (chunk : Bytes), I p → I (chunkLoop iter fuel p chunk).parser
  | 0, _, _, hp => hp
  | fuel + 1, p, chunk, hp => by
      simp only [chunkLoop]
      split
      · exact hp
      · rename_i hne
        have hkeep := (h p chunk hp (by simpa using hne)).1
        split
        · exact h.keeps fuel _ _ hkeep
        · exact hkeep

/-- **A bound that the measure allows suffices**: the loop ends with what `chunkLoop` computes. -/
theorem Advances.returns (h : Advances iter I extra) :
    ∀ (fuel : Nat) (p : π) (messages : List Bytes) (chunk : Bytes), I p →
      (chunk ≠ [] → chunk.length + extra p ≤ fuel) →
      (chunkWhile iter).Returns ⟨p, messages, chunk⟩
        { chunkLoop iter fuel p chunk with
          messages := messages ++ (chunkLoop iter fuel p chunk).messages }
  | 0, p, messages, chunk, _, hfuel => by
      have hnil : chunk = [] := by
        by_contra hne
        have hpos := List.length_pos_iff.2 hne
        have hle := hfuel hne
        omega
      subst hnil
      exact (Loop.returns_of_result (chunkWhile_body_nil p messages)).2 (by simp [chunkLoop])
  | fuel + 1, p, messages, chunk, hp, hfuel => by
      by_cases hne : chunk = []
      · subst hne
        exact (Loop.returns_of_result (chunkWhile_body_nil p messages)).2 (by simp [chunkLoop])
      · obtain ⟨hkeep, hless⟩ := h p chunk hp hne
        have hle := hfuel hne
        have hbody := chunkWhile_body iter p messages hne
        cases hok : (iter p chunk).1.status.isOk with
        | true =>
            rw [if_pos hok] at hbody
            have hlt := hless hok
            have hrest := h.returns fuel (iter p chunk).1.parser
              (messages ++ (iter p chunk).1.messages) (iter p chunk).2 hkeep (fun _ => by omega)
            rw [Loop.returns_of_next hbody]
            simpa [chunkLoop, hne, hok] using hrest
        | false =>
            rw [if_neg (by simp [hok])] at hbody
            exact (Loop.returns_of_result hbody).2 (by simp [chunkLoop, hne, hok])

/-- **A loop over a chunk ends** within the passes that its measure allows. -/
theorem Advances.completes (h : Advances iter I extra) {J : π → Prop} (hJ : ∀ p, I p → J p)
    {p : π} (hp : I p) (hextra : extra p ≤ 1) {chunk : Bytes} {n : Nat}
    (hn : chunk.length + extra p < n) :
    (chunkWhile iter).Completes (fun s => J s.parser) n ⟨p, [], chunk⟩
      (chunkLoop iter (2 * chunk.length) p chunk) := by
  apply Loop.completes_of_measure (I := fun s => I s.parser)
    (μ := fun s => s.rest.length + extra s.parser)
  · intro s t hs hbody
    exact h.pass hs hbody
  · intro s hs
    exact hJ s.parser hs
  · exact hp
  · exact hn
  · apply h.returns (2 * chunk.length) p [] chunk hp
    intro hne
    have hpos := List.length_pos_iff.2 hne
    omega

end

/-! ## The parser of the server -/

namespace StreamingFrameParser

/-- What every call of `Feed` leaves, whatever its status: room in the header, no more payload than
announced, and none of it while the header is incomplete. -/
structure Counted (p : StreamingFrameParser) : Prop where
  room : p.headerBytes ≤ 5
  announced : p.payload.length ≤ p.payloadLen
  empty : p.headerBytes < 5 → p.payload = []

/-- The header is complete and no payload is to come: what a rejected flag leaves behind. -/
def Stalled (p : StreamingFrameParser) : Prop :=
  p.headerBytes = 5 ∧ p.payload.length = p.payloadLen

instance (p : StreamingFrameParser) : Decidable p.Stalled := inferInstanceAs (Decidable (_ ∧ _))

/-- The iterations that take no byte. -/
def idle (p : StreamingFrameParser) : Nat := if p.Stalled then 1 else 0

theorem counted_new (m : Nat) : (new m).Counted := ⟨Nat.zero_le 5, Nat.le_refl 0, fun _ => rfl⟩

theorem idle_eq_zero {p : StreamingFrameParser}
    (h : p.headerBytes = 5 → p.payload.length ≠ p.payloadLen) : p.idle = 0 :=
  if_neg fun hs => h hs.1 hs.2

theorem idle_le_one (p : StreamingFrameParser) : p.idle ≤ 1 := by
  simp only [idle]
  split <;> decide

/-- The header branch once the fifth byte has come. An accepted header is not stalled: its empty
message is handed out, or payload is to come. -/
theorem Counted.parseHeader {p : StreamingFrameParser} (hroom : p.headerBytes = 5)
    (hnil : p.payload = []) :
    p.parseHeader.parser.Counted ∧
      (p.parseHeader.status.isOk = true → p.parseHeader.parser.idle = 0) := by
  simp only [StreamingFrameParser.parseHeader]
  split
  · refine ⟨⟨Nat.le_of_eq hroom, ?_, fun _ => hnil⟩, (by intro hok; cases hok)⟩
    simp [hnil]
  · split
    · refine ⟨⟨Nat.le_of_eq hroom, ?_, fun _ => hnil⟩, (by intro hok; cases hok)⟩
      simp [hnil]
    · split
      · refine ⟨⟨Nat.zero_le 5, Nat.zero_le _, fun _ => rfl⟩, fun _ => ?_⟩
        exact idle_eq_zero (by intro h5; cases h5)
      · rename_i hpos
        refine ⟨⟨Nat.le_of_eq hroom, Nat.zero_le _, fun _ => rfl⟩, fun _ => ?_⟩
        exact idle_eq_zero fun _ hzero => hpos hzero.symm

/-- **One iteration of `Feed`.** It takes a byte, except after a rejected flag. -/
theorem advances_feedIter : Advances feedIter Counted idle := by
  intro p chunk hp hne
  by_cases hhead : p.headerBytes < 5
  · have hneed : sizeSub 5 p.headerBytes = 5 - p.headerBytes := sizeSub_of_le (by omega)
    have hnil := hp.empty hhead
    have hless := length_drop_take_lt (5 - p.headerBytes) (by omega) hne
    simp only [feedIter, if_pos hhead, hneed]
    generalize hk : min (5 - p.headerBytes) chunk.length = k at hless
    have hlen : (chunk.take k).length = k := by
      rw [List.length_take]
      omega
    -- a parser that is short of a header is not stalled
    have hidle : p.idle = 0 := idle_eq_zero fun h5 => by omega
    rw [hidle]
    simp only [headerBlock, hlen]
    split
    · rename_i h5
      obtain ⟨hcount, hzero⟩ := Counted.parseHeader (p := { p with
        headerBuf := memcpy p.headerBuf p.headerBytes (chunk.take k)
        headerBytes := p.headerBytes + k }) h5 hnil
      refine ⟨hcount, fun hok => ?_⟩
      rw [hzero hok]
      exact hless
    · rename_i h5
      refine ⟨⟨by show p.headerBytes + k ≤ 5; omega, hp.announced, fun _ => hnil⟩, fun _ => ?_⟩
      rw [idle_eq_zero fun hfive => absurd hfive h5]
      exact hless
  · -- the payload is not longer than announced, so that the difference does not wrap
    have hfive : p.headerBytes = 5 := Nat.le_antisymm hp.room (Nat.not_lt.1 hhead)
    have hneed : sizeSub p.payloadLen p.payload.length = p.payloadLen - p.payload.length :=
      sizeSub_of_le hp.announced
    simp only [feedIter, if_neg hhead, hneed]
    have hgrown : (p.payload ++ chunk.take (min (p.payloadLen - p.payload.length)
        chunk.length)).length ≤ p.payloadLen := by
      have hle := hp.announced
      rw [List.length_append, List.length_take]
      omega
    have hspent : (chunk.drop (min (p.payloadLen - p.payload.length) chunk.length)).length <
        chunk.length + p.idle := by
      by_cases hstalled : p.Stalled
      · -- nothing is taken, and the stale header is given up
        rw [idle, if_pos hstalled, List.length_drop]
        omega
      · have hle := hp.announced
        have hmore : p.payload.length ≠ p.payloadLen := fun heq => hstalled ⟨hfive, heq⟩
        have hless := length_drop_take_lt (p.payloadLen - p.payload.length) (by omega) hne
        omega
    simp only [payloadBlock]
    split
    · refine ⟨⟨Nat.zero_le 5, Nat.le_refl 0, fun _ => rfl⟩, fun _ => ?_⟩
      rw [idle_eq_zero (by intro h5; cases h5)]
      exact hspent
    · rename_i hpart
      refine ⟨⟨hp.room, hgrown, fun hlt => absurd hlt hhead⟩, fun _ => ?_⟩
      rw [idle_eq_zero fun _ => hpart]
      exact hspent

/-- The parser after a call. -/
def afterFeed (p : StreamingFrameParser) (chunk : Bytes) : StreamingFrameParser :=
  (p.feed chunk).parser

theorem Counted.foldl {p : StreamingFrameParser} (h : p.Counted) (chunks : List Bytes) :
    (chunks.foldl afterFeed p).Counted := by
  induction chunks generalizing p with
  | nil => exact h
  | cons chunk chunks ih => exact ih (advances_feedIter.keeps _ p chunk h)

/-- **`Feed` of the server's parser ends**, after any calls of `Feed` and whatever they returned,
with at most one iteration for each byte and one more. -/
theorem feed_completes (m : Nat) (chunks : List Bytes) (chunk : Bytes) :
    (chunkWhile feedIter).Completes
      (fun s => NeedsFit s.parser.headerBytes s.parser.payloadLen s.parser.payload)
      (chunk.length + 2) ⟨chunks.foldl afterFeed (new m), [], chunk⟩
      ((chunks.foldl afterFeed (new m)).feed chunk) := by
  have hidle := idle_le_one (chunks.foldl afterFeed (new m))
  apply advances_feedIter.completes (J := fun p => NeedsFit p.headerBytes p.payloadLen p.payload)
  · intro p hp
    exact needsFit_of_le hp.room hp.announced
  · exact (counted_new m).foldl chunks
  · exact hidle
  · omega

-- after a rejected flag the next call first hands out an empty message
example : ((new 4).afterFeed [2, 0, 0, 0, 0]).Stalled ∧
    (((new 4).afterFeed [2, 0, 0, 0, 0]).feed [0]).messages = [[]] := by decide

end StreamingFrameParser

/-! ## The parser of the client -/

namespace LpmReader

/-- What every data callback leaves, also one that fails. -/
structure Counted (p : LpmReader) : Prop where
  room : p.hdrBytes ≤ 5
  announced : p.payloadBuf.length ≤ p.payloadLen
  header : p.hdrDone = false → p.hdrBytes < 5 ∧ p.payloadBuf = []
  payload : p.hdrDone = true → p.payloadBuf.length < p.payloadLen

theorem counted_new : Counted new :=
  ⟨Nat.zero_le 5, Nat.le_refl 0, fun _ => ⟨Nat.zero_lt_succ 4, rfl⟩, (by intro hd; cases hd)⟩

/-- The header branch once the fifth byte has come. A length over the limit is not zero. -/
theorem Counted.parseHeader {p : LpmReader} (hroom : p.hdrBytes = 5) (hnil : p.payloadBuf = [])
    (maxMsgSize : Nat) : (p.parseHeader maxMsgSize).parser.Counted := by
  simp only [LpmReader.parseHeader]
  split
  · rename_i hlarge
    refine ⟨Nat.le_of_eq hroom, ?_, (by intro hd; cases hd), fun _ => ?_⟩
    · simp [hnil]
    · simp only [hnil, List.length_nil]
      omega
  · split
    · exact ⟨Nat.zero_le 5, Nat.zero_le _, fun _ => ⟨Nat.zero_lt_succ 4, rfl⟩,
        (by intro hd; cases hd)⟩
    · rename_i hpos
      exact ⟨Nat.le_of_eq hroom, Nat.zero_le _, (by intro hd; cases hd),
        fun _ => Nat.pos_of_ne_zero hpos⟩

/-- **One iteration of the data callback.** It takes a byte. -/
theorem advances_feedIter (maxMsgSize : Nat) :
    Advances (fun p => feedIter p maxMsgSize) Counted (fun _ => 0) := by
  intro p chunk hp hne
  cases hdone : p.hdrDone with
  | false =>
      obtain ⟨hlt, hnil⟩ := hp.header hdone
      have hneed : sizeSub 5 p.hdrBytes = 5 - p.hdrBytes := sizeSub_of_le (by omega)
      have hless := length_drop_take_lt (5 - p.hdrBytes) (by omega) hne
      simp only [feedIter, hdone, Bool.not_false, if_true, hneed]
      refine ⟨?_, fun _ => hless⟩
      generalize hk : min (5 - p.hdrBytes) chunk.length = k
      have hlen : (chunk.take k).length = k := by
        rw [List.length_take]
        omega
      simp only [headerBlock, hlen]
      split
      · rename_i h5
        exact Counted.parseHeader (p := { p with
          hdrBuf := memcpy p.hdrBuf p.hdrBytes (chunk.take k)
          hdrBytes := p.hdrBytes + k }) h5 hnil maxMsgSize
      · rename_i h5
        have hroom : p.hdrBytes + k < 5 := by omega
        refine ⟨Nat.le_of_lt hroom, hp.announced, fun _ => ⟨hroom, hnil⟩, fun hd => ?_⟩
        rw [show p.hdrDone = true from hd] at hdone
        cases hdone
  | true =>
      have hlt := hp.payload hdone
      have hneed : sizeSub p.payloadLen p.payloadBuf.length =
          p.payloadLen - p.payloadBuf.length := sizeSub_of_le hp.announced
      have hless := length_drop_take_lt (p.payloadLen - p.payloadBuf.length) (by omega) hne
      simp only [feedIter, hdone, Bool.not_true, Bool.false_eq_true, if_false, hneed]
      refine ⟨?_, fun _ => hless⟩
      -- here `hdr_done_` says that payload is missing, so that every iteration takes a byte
      have hgrown : (p.payloadBuf ++ chunk.take (min (p.payloadLen - p.payloadBuf.length)
          chunk.length)).length ≤ p.payloadLen := by
        rw [List.length_append, List.length_take]
        omega
      simp only [payloadBlock]
      split
      · exact ⟨Nat.zero_le 5, Nat.le_refl 0, fun _ => ⟨Nat.zero_lt_succ 4, rfl⟩,
          (by intro hd; cases hd)⟩
      · rename_i hpart
        refine ⟨hp.room, hgrown, fun hd => ?_, fun _ => Nat.lt_of_le_of_ne hgrown hpart⟩
        rw [show p.hdrDone = false from hd] at hdone
        cases hdone

/-- The parser members after a data callback with the limit and the chunk. -/
def afterFeed (p : LpmReader) (call : Nat × Bytes) : LpmReader := (p.feed call.1 call.2).parser

theorem Counted.feed {p : LpmReader} (h : p.Counted) (maxMsgSize : Nat) (chunk : Bytes) :
    (p.feed maxMsgSize chunk).parser.Counted :=
  (advances_feedIter maxMsgSize).keeps _ p chunk h

theorem Counted.foldl {p : LpmReader} (h : p.Counted) (calls : List (Nat × Bytes)) :
    (calls.foldl afterFeed p).Counted := by
  induction calls generalizing p with
  | nil => exact h
  | cons call calls ih => exact ih (h.feed call.1 call.2)

/-- **The loop of a data callback ends**, with at most one iteration for each byte. -/
theorem Counted.feed_completes {p : LpmReader} (h : p.Counted) (maxMsgSize : Nat) (chunk : Bytes) :
    (chunkWhile fun p => feedIter p maxMsgSize).Completes
      (fun s => NeedsFit s.parser.hdrBytes s.parser.payloadLen s.parser.payloadBuf)
      (chunk.length + 1) ⟨p, [], chunk⟩ (p.feed maxMsgSize chunk) := by
  apply (advances_feedIter maxMsgSize).completes
    (J := fun p => NeedsFit p.hdrBytes p.payloadLen p.payloadBuf)
  · intro p hp
    exact needsFit_of_le hp.room hp.announced
  · exact h
  · exact Nat.zero_le 1
  · exact Nat.lt_succ_self _

end LpmReader

end Rpcpio.Protocol
