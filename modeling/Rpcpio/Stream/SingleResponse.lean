import Rpcpio.Stream.Truncation

/-!
# The single response of a client-streaming call

A client-streaming call reads its response with the loop for many messages: each complete frame
overwrites `response_bytes_`, `has_response_` stays set, and bytes behind the last frame are not
looked at when the trailers arrive. `FinishAndGetResponse` turns a missing response into an error.
So the call accepts exactly one response only if no complete frame is followed by anything, and the
flag is not reserved (`acceptsOneResponse_iff`).
-/

set_option autoImplicit false

namespace Rpcpio.Stream

open Rpcpio.Library Rpcpio.Protocol Rpcpio.Client

/-- `ClientWriter::FinishAndGetResponse` with the parser of the response type, one pass of the
polling loop: the status and the response. -/
def finishAndGetResponse {α : Type} (parse : Bytes → Option α) (w : RawClientWriterImpl) :
    Option (Status × Option α) :=
  w.finish.map fun s =>
    if s.isOk then
      if !w.hasResponse then
        (Status.of .internal (text "client-streaming: missing server response"), none)
      else
        match parse w.responseBytes with
        | some response => (s, some response)
        | none => (Status.of .internal (text "client-streaming: response parse failed"), none)
    else (s, none)

/-- The writer after the data closures of the chunks, the trailers, and the closures that were
posted to the `io_context`. -/
def writerAfter (m : Nat) (c : StreamingCallState) (chunks : List Bytes) (trailers : HeaderMap) :
    Option RawClientWriterImpl :=
  let r := receiveData m c chunks
  (r.2.foldl StreamingCallState.runIoc (r.1.onTrailers trailers)).writer

/-- The writer reports `OK` with the response `p`. -/
def ReportsResponse (w : RawClientWriterImpl) (p : Bytes) : Prop :=
  (∃ s, w.finish = some s ∧ s.isOk = true) ∧ w.hasResponse = true ∧ w.responseBytes = p

/-- The bytes are exactly one complete frame with the payload `p`. -/
def IsFrame (bytes p : Bytes) : Prop :=
  ∃ flag : UInt8, (flag = 0 ∨ flag = 1) ∧ encodeFrame flag p = some bytes

/-- A response is reported only for exactly one complete frame, and anything else ends in a status
other than `OK`. -/
structure AcceptsOneResponse (bytes : Bytes) (w : RawClientWriterImpl) : Prop where
  single : ∀ p, ReportsResponse w p → IsFrame bytes p
  otherwise : (∀ p, ¬ IsFrame bytes p) → ∀ (α : Type) (parse : Bytes → Option α),
    ∃ r, finishAndGetResponse parse w = some r ∧ r.1.isOk = false

/-! ## What the writer holds -/

/-- A new client-streaming call after its response: the trailers' status with the last message, or
the error of an oversized message. -/
theorem writerAfter_eq (ctx : Option ClientContext) (m : Nat) (chunks : List Bytes)
    (trailers : HeaderMap) :
    ∃ w, writerAfter m (ClientStreamingClientCallState.new ctx) chunks trailers = some w ∧
      match (clientFormat m).scan (.pending []) chunks.flatten with
      | (.pending _, fs) => w.finish = some (extractTrailerStatus trailers) ∧
          w.responseBytes = (payloadsOf fs).getLastD [] ∧ w.hasResponse = !fs.isEmpty
      | (.rejected e, _) => w.finish = some e ∧ e.isOk = false := by
  have hread := hasRead_receiveData (m := m) (c := ClientStreamingClientCallState.new ctx) rfl rfl
    chunks
  have hwriter := hread.writer
  have hstate := hread.state
  rw [(foldl_deliver_writer (w := RawClientWriterImpl.new) rfl rfl _).2] at hwriter
  simp only [writerAfter]
  cases hscan : (clientFormat m).scan (.pending []) chunks.flatten with
  | mk state fs =>
      rw [hscan] at hwriter hstate
      generalize hw : { RawClientWriterImpl.new with
        responseBytes := (payloadsOf fs).getLastD RawClientWriterImpl.new.responseBytes
        hasResponse := RawClientWriterImpl.new.hasResponse || !(payloadsOf fs).isEmpty } = w
        at hwriter
      cases state with
      | pending got =>
          obtain ⟨hclosed, _, hposted⟩ := hstate
          refine ⟨w.setFinalStatus (extractTrailerStatus trailers), ?_, rfl, ?_, ?_⟩
          · simp [hposted, StreamingCallState.onTrailers, hclosed,
              StreamingCallState.maybeDeliverStatus, StreamingCallState.setFinalStatus, hwriter]
          · rw [← hw]
            rfl
          · rw [← hw]
            simp [RawClientWriterImpl.setFinalStatus, payloadsOf, RawClientWriterImpl.new]
      | rejected e =>
          obtain ⟨hclosed, hposted, hbad⟩ := hstate
          refine ⟨w.setFinalStatus e, ?_, rfl, hbad⟩
          simp [hposted, StreamingCallState.onTrailers, hclosed, StreamingCallState.runIoc,
            StreamingCallState.publishError, StreamingCallState.setFinalStatus, hwriter]

/-- A frame within the limit is read as one message, whatever its flag. -/
theorem scan_client_frame {m : Nat} {bytes p : Bytes} (h : IsFrame bytes p) :
    (p.length ≤ m → ∃ f : LengthPrefix.Frame UInt8, f.payload = p ∧
        (clientFormat m).scan (.pending []) bytes = (.pending [], [f])) ∧
      (m < p.length → ∃ e, (clientFormat m).scan (.pending []) bytes = (.rejected e, [])) := by
  obtain ⟨flag, _, hframe⟩ := h
  -- `EncodeFrame` refuses a length that does not fit into the header
  have hlen : p.length < 2 ^ 32 := by
    by_contra hlarge
    rw [encodeFrame, if_pos (by omega)] at hframe
    cases hframe
  rw [encodeFrame_eq_some hlen, Option.some.injEq] at hframe
  subst hframe
  have hheader : headerLength (framePrefix flag p.length) = p.length :=
    headerLength_framePrefix flag hlen
  constructor
  -- the whole frame is read
  · intro hle
    have hwf : (clientFormat m).WellFormed (messageFrame flag p) := by
      refine ⟨rfl, ?_⟩
      simp [clientFormat, messageFrame, hheader, Nat.not_lt.2 hle]
    exact ⟨messageFrame flag p, rfl, LengthPrefix.scan_symbols hwf⟩
  -- the header alone is rejected
  · intro hlt
    refine ⟨Status.of .resourceExhausted (text "received message too large"), ?_⟩
    have hann : (clientFormat m).announce
        ((framePrefix flag p.length ++ p).take (clientFormat m).headerSize) =
          .error (Status.of .resourceExhausted (text "received message too large")) := by
      have htake : (framePrefix flag p.length ++ p).take (clientFormat m).headerSize =
          framePrefix flag p.length := List.take_left' rfl
      rw [htake]
      exact if_pos (by rw [hheader]; exact hlt)
    have hlong : (clientFormat m).headerSize ≤ (framePrefix flag p.length ++ p).length := by
      rw [List.length_append]
      exact Nat.le_add_right _ _
    have hnone : ∀ f ∈ ([] : List (LengthPrefix.Frame UInt8)), (clientFormat m).WellFormed f := by
      intro f hf
      cases hf
    exact LengthPrefix.scan_rejected_header hnone hlong hann

/-! ## Exactly one response -/

/-- A call that failed reports no response. -/
theorem accepts_of_failed {bytes : Bytes} {w : RawClientWriterImpl} {e : Status}
    (hfinish : w.finish = some e) (hbad : e.isOk = false) : AcceptsOneResponse bytes w := by
  constructor
  · rintro p ⟨⟨s, hs, hsok⟩, _⟩
    rw [hfinish] at hs
    cases hs
    rw [hbad] at hsok
    cases hsok
  · intro _ α parse
    refine ⟨(e, none), ?_, hbad⟩
    simp [finishAndGetResponse, hfinish, hbad]

/-- Without a message the status is an error: the response is missing. -/
theorem accepts_of_missing {bytes : Bytes} {w : RawClientWriterImpl} {s : Status}
    (hfinish : w.finish = some s) (hok : s.isOk = true) (hnone : w.hasResponse = false) :
    AcceptsOneResponse bytes w := by
  constructor
  · rintro p ⟨_, hsome, _⟩
    rw [hnone] at hsome
    cases hsome
  · intro _ α parse
    refine ⟨(Status.of .internal (text "client-streaming: missing server response"), none), ?_,
      rfl⟩
    simp [finishAndGetResponse, hfinish, hok, hnone]

/-- With a message there is a response, and it is accepted exactly if the bytes are its frame. -/
theorem accepts_iff_of_message {m : Nat} {bytes got : Bytes} {w : RawClientWriterImpl}
    {f : LengthPrefix.Frame UInt8} {fs : List (LengthPrefix.Frame UInt8)}
    (hscan : (clientFormat m).scan (.pending []) bytes = (.pending got, f :: fs))
    (hreports : ReportsResponse w ((payloadsOf (f :: fs)).getLastD [])) :
    AcceptsOneResponse bytes w ↔ ∃ p, IsFrame bytes p := by
  constructor
  · intro haccepts
    exact ⟨_, haccepts.single _ hreports⟩
  · rintro ⟨p, hframe⟩
    obtain ⟨hsmall, hlarge⟩ := scan_client_frame (m := m) hframe
    -- one frame of which a first frame was read is that frame
    by_cases hle : p.length ≤ m
    · obtain ⟨g, hg, hone⟩ := hsmall hle
      rw [hscan] at hone
      cases hone
      refine ⟨?_, fun hnot => absurd hframe (hnot p)⟩
      rintro p' ⟨_, _, hp'⟩
      rw [← hp', hreports.2.2]
      simpa [payloadsOf, hg] using hframe
    -- but no frame is read of one over the limit
    · obtain ⟨e, he⟩ := hlarge (by omega)
      rw [hscan] at he
      cases he

/-- Bytes from which no frame is read are unfinished. -/
theorem unfinished_of_scan {m : Nat} {bytes got : Bytes}
    (hscan : (clientFormat m).scan (.pending []) bytes = (.pending got, [])) :
    (clientFormat m).Unfinished bytes := by
  have hsound := LengthPrefix.scan_sound (F := clientFormat m) (l := bytes)
    LengthPrefix.unfinished_nil
  rw [hscan] at hsound
  obtain ⟨hcat, hgot, _⟩ := hsound
  have heq : bytes = got := by simpa using hcat
  exact heq ▸ hgot

/-- **A client-streaming call accepts exactly one response** if and only if the response data are
one complete frame, no complete frame at all, or exceed the limit in some header. -/
theorem acceptsOneResponse_iff (ctx : Option ClientContext) (m : Nat) (chunks : List Bytes)
    {trailers : HeaderMap} (hok : (extractTrailerStatus trailers).isOk = true) :
    (∃ w, writerAfter m (ClientStreamingClientCallState.new ctx) chunks trailers = some w ∧
        AcceptsOneResponse chunks.flatten w) ↔
      (∃ p, IsFrame chunks.flatten p) ∨ (clientFormat m).Unfinished chunks.flatten ∨
        ∃ k e, (clientFormat m).RejectedAt chunks.flatten k e := by
  obtain ⟨w, hw, hresult⟩ := writerAfter_eq ctx m chunks trailers
  have hsame : (∃ w', writerAfter m (ClientStreamingClientCallState.new ctx) chunks trailers =
      some w' ∧ AcceptsOneResponse chunks.flatten w') ↔ AcceptsOneResponse chunks.flatten w := by
    constructor
    · rintro ⟨w', hw', haccepts⟩
      rw [hw] at hw'
      cases hw'
      exact haccepts
    · exact fun haccepts => ⟨w, hw, haccepts⟩
  rw [hsame]
  cases hscan : (clientFormat m).scan (.pending []) chunks.flatten with
  | mk state fs =>
      rw [hscan] at hresult
      cases state with
      | rejected e =>
          -- the call fails with the error of the oversized message
          refine iff_of_true (accepts_of_failed hresult.1 hresult.2) (Or.inr (Or.inr ?_))
          exact ⟨_, e, LengthPrefix.rejectedAt_iff.2 ⟨fs, hscan, rfl⟩⟩
      | pending got =>
          obtain ⟨hfinish, hbytes, hresponse⟩ := hresult
          cases fs with
          -- no complete frame: the response is missing
          | nil =>
              exact iff_of_true (accepts_of_missing hfinish hok hresponse)
                (Or.inr (Or.inl (unfinished_of_scan hscan)))
          -- a response is there, and neither an unfinished frame nor a rejected header is one
          | cons f fs =>
              rw [accepts_iff_of_message hscan ⟨⟨_, hfinish, hok⟩, hresponse, hbytes⟩]
              constructor
              · exact Or.inl
              · rintro (hframe | hunfinished | ⟨k, e, hrejected⟩)
                · exact hframe
                · rw [LengthPrefix.scan_unfinished hunfinished] at hscan
                  cases hscan
                · obtain ⟨fs', hscan', _⟩ := LengthPrefix.rejectedAt_iff.1 hrejected
                  rw [hscan] at hscan'
                  cases hscan'

/-- One message in two chunks is accepted. -/
theorem acceptsOneResponse_example :
    ∃ w, writerAfter 4 (ClientStreamingClientCallState.new none) [[0, 0, 0], [0, 1, 7]] okTrailers =
      some w ∧ AcceptsOneResponse [0, 0, 0, 0, 1, 7] w :=
  (acceptsOneResponse_iff none 4 [[0, 0, 0], [0, 1, 7]] (by decide)).2
    (Or.inl ⟨[7], 0, Or.inl rfl, rfl⟩)

/-- **Two messages are one response to the call**, which reports the second. -/
theorem not_acceptsOneResponse :
    ¬ ∀ (ctx : Option ClientContext) (m : Nat) (chunks : List Bytes) (trailers : HeaderMap),
      (extractTrailerStatus trailers).isOk = true →
        ∃ w, writerAfter m (ClientStreamingClientCallState.new ctx) chunks trailers = some w ∧
          AcceptsOneResponse chunks.flatten w := by
  intro h
  obtain ⟨w, hw, haccepts⟩ := h none 4 [[0, 0, 0, 0, 1, 7, 0, 0, 0, 0, 1, 8]] okTrailers (by decide)
  have hreports : ReportsResponse w [8] := by
    cases hw
    exact ⟨⟨_, rfl, rfl⟩, rfl, rfl⟩
  obtain ⟨flag, _, hframe⟩ := haccepts.single [8] hreports
  have hlen := congrArg (Option.map List.length) hframe
  cases hlen

end Rpcpio.Stream
