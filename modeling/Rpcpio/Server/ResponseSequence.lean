import Rpcpio.Server.CallState
import Rpcpio.Server.ClientStreamingCallState

/-!
# What a response with one message looks like on the wire

`SendResponse` of the unary and of the client-streaming call state writes a header block and, for a
status `OK`, installs a generator that emits the frame of the response and then the trailers.
`Reply.items` is the sequence of header blocks and DATA, for a session that polls the generator for
buffers of any lengths. Both functions check the size of the response, and both ignore what
`EncodeFrame` returns: `OK` is reported behind the complete frame unless a response that passes the
check does not fit in a frame (`reportsHonestly_iff`).
-/

set_option autoImplicit false

namespace Rpcpio.Server

open Rpcpio.Library Rpcpio.Protocol

/-! ## The sequence of a reply -/

/-- A part of a response: the header block, bytes of DATA, or the trailers. -/
inductive WireItem where
  | headers (h : HeaderMap)
  | data (bytes : Bytes)
  | trailers (h : HeaderMap)
  deriving DecidableEq, Repr

/-- The header block of an item. -/
def WireItem.block : WireItem → Option HeaderMap
  | .headers h => some h
  | .trailers h => some h
  | .data _ => none

/-- The DATA bytes of an item. -/
def WireItem.bytes : WireItem → Bytes
  | .data bytes => bytes
  | _ => []

/-- The DATA bytes of a sequence. -/
def dataOf (items : List WireItem) : Bytes := items.flatMap WireItem.bytes

/-- The trailers that a call on the response writes. -/
def trailerItem : ResponseCall → Option WireItem
  | .writeTrailer h => some (.trailers h)
  | _ => none

/-- What the polls for buffers of the given lengths emit, up to the end of the data. -/
def ResponseBody.items : ResponseBody → List Nat → List WireItem
  | _, [] => []
  | b, len :: lens =>
      match b.generate len with
      | (b', .data bytes, _) => .data bytes :: b'.items lens
      | (_, .eof _, calls) => calls.filterMap trailerItem
      | (b', .deferred, _) => b'.items lens

/-- The header block of a reply, and what the polls of its body emit. -/
def Reply.items (r : Reply) (lens : List Nat) : List WireItem :=
  .headers r.head ::
    match r.body with
    | none => []
    | some b => b.items lens

/-! ## The property -/

/-- A block with a `grpc-status` that is read as zero. -/
def ReportsOk (h : HeaderMap) : Prop :=
  ∃ e ∈ h, e.1 = text "grpc-status" ∧ parseGrpcStatus e.2.value = .ok

/-- A sequence reports `OK` only behind DATA that are the frame of the response; a response over the
limit, or one that does not fit in a frame, ends as `RESOURCE_EXHAUSTED` without DATA; and a status
that is not `OK` is reported without DATA. -/
structure HonestItems (s : Status) (respBytes : Bytes) (maxResponseSize : Nat)
    (items : List WireItem) : Prop where
  ok : ∀ pre item post h, items = pre ++ item :: post → item.block = some h → ReportsOk h →
    encodeFrame 0 respBytes = some (dataOf pre)
  refused : s.isOk = true →
    maxResponseSize < respBytes.length ∨ encodeFrame 0 respBytes = none →
    ∃ h, items = [.headers h] ∧ (extractTrailerStatus h).code = .resourceExhausted
  failed : s.isOk = false → ∃ h, items = [.headers h] ∧ extractTrailerStatus h = s

/-- A reply is honest however its body is polled. -/
def ReportsHonestly (s : Status) (respBytes : Bytes) (maxResponseSize : Nat) (r : Reply) : Prop :=
  ∀ lens, HonestItems s respBytes maxResponseSize (r.items lens)

/-- A response that passes the check of its size and does not fit in a frame. -/
def Unframeable (s : Status) (respBytes : Bytes) (maxResponseSize : Nat) : Prop :=
  s.isOk = true ∧ 2 ^ 32 ≤ respBytes.length ∧ respBytes.length ≤ maxResponseSize

/-! ## The header blocks -/

/-- Built trailers report `OK` for a status `OK` only. -/
theorem isOk_of_reportsOk {s : Status} {m : MetadataMap} {out : HeaderMap}
    (hout : Multimap.find (text "grpc-status") out = none)
    (h : ReportsOk (buildTrailers s m out)) : s.isOk = true := by
  obtain ⟨e, he, hk, hok⟩ := h
  rw [status_of_mem_buildTrailers hout he hk] at hok
  have hcode : s.code = .ok := by
    rw [← hok]
    exact (parseGrpcStatus_decimal s.code).symm
  rw [Status.isOk, hcode]
  rfl

/-- The header block of a body has no status. -/
theorem not_reportsOk_head (z : Zlib) (initial : MetadataMap) :
    ¬ ReportsOk (metadataToNghttp2Headers initial (addCommonHeaders z [])) := by
  rintro ⟨e, he, hk, _⟩
  have hnone : Multimap.find (text "grpc-status")
      (metadataToNghttp2Headers initial (addCommonHeaders z [])) = none :=
    find_common_eq_none (by decide) (by decide) (by decide) initial
  exact Multimap.find_eq_none.1 hnone e he hk

/-! ## The DATA of a body -/

/-- Along a sequence whose DATA are preceded by the bytes `sent`, `OK` comes behind the frame. -/
def OkAfter (respBytes : Bytes) : Bytes → List WireItem → Prop
  | _, [] => True
  | sent, item :: items =>
      (∀ h, item.block = some h → ReportsOk h → encodeFrame 0 respBytes = some sent) ∧
        OkAfter respBytes (sent ++ item.bytes) items

theorem OkAfter.split {respBytes sent : Bytes} {items pre post : List WireItem} {item : WireItem}
    (h : OkAfter respBytes sent items) (hitems : items = pre ++ item :: post) {block : HeaderMap}
    (hblock : item.block = some block) (hok : ReportsOk block) :
    encodeFrame 0 respBytes = some (sent ++ dataOf pre) := by
  subst hitems
  induction pre generalizing sent with
  | nil =>
      rw [dataOf, List.flatMap_nil, List.append_nil]
      exact h.1 block hblock hok
  | cons first pre ih =>
      have hrest := ih h.2
      rw [dataOf, List.flatMap_cons, ← List.append_assoc]
      exact hrest

/-- The polls emit what is left of the frame, and the trailers behind it. -/
theorem okAfter_items {respBytes frame : Bytes} (hframe : encodeFrame 0 respBytes = some frame)
    (trailers : HeaderMap) (lens : List Nat) {offset : Nat} (hoffset : offset ≤ frame.length) :
    OkAfter respBytes (frame.take offset)
      (ResponseBody.items ⟨frame, offset, trailers⟩ lens) := by
  induction lens generalizing offset with
  | nil => exact trivial
  | cons len lens ih =>
      rcases Nat.eq_or_lt_of_le hoffset with hend | hlt
      · -- the frame is complete
        have hgen := ResponseBody.generate_end (b := ⟨frame, offset, trailers⟩) hend len
        rw [ResponseBody.items, hgen]
        refine ⟨fun h _ _ => ?_, trivial⟩
        rw [hframe, hend, List.take_length]
      · -- a part of the frame, which is behind the `offset` bytes that were emitted
        have hgen := ResponseBody.generate_bytes (b := ⟨frame, offset, trailers⟩) hlt len
        rw [ResponseBody.items, hgen]
        have hdata : ∀ chunk h, WireItem.block (.data chunk) = some h → ReportsOk h →
            encodeFrame 0 respBytes = some (frame.take offset) := by
          intro chunk h hblock
          cases hblock
        refine ⟨hdata _, ?_⟩
        show OkAfter respBytes (frame.take offset ++
          (frame.drop offset).take (min (frame.length - offset) len)) _
        rw [← List.take_add]
        exact ih (by omega)

/-! ## The replies -/

/-- What either `SendResponse` sends. -/
def handlerReply (z : Zlib) (ctx : ServerContext) (maxResponseSize : Nat) (s : Status)
    (respBytes : Bytes) : Reply :=
  if s.isOk = false then
    ⟨buildTrailers s ctx.trailingMetadata
      (metadataToNghttp2Headers ctx.initialMetadata (addCommonHeaders z [])), none⟩
  else if maxResponseSize < respBytes.length then errorReply z responseTooLarge
  else
    ⟨metadataToNghttp2Headers ctx.initialMetadata (addCommonHeaders z []),
      some ⟨(encodeFrame 0 respBytes).getD [], 0, buildTrailers s ctx.trailingMetadata []⟩⟩

theorem ServerCallState.sendResponse_eq (z : Zlib) {c : ServerCallState}
    (hr : c.responded = false) (s : Status) (respBytes : Bytes) :
    (c.sendResponse z s respBytes).2 =
      some (handlerReply z c.ctx c.maxResponseSize s respBytes) := by
  rw [sendResponse, if_neg (by rw [hr]; decide), handlerReply, responseReply]
  cases s.isOk <;> rfl

/-- The client-streaming call state looks at the size before the status, for a status `OK` only. -/
theorem ClientStreamingCallState.sendResponse_eq (z : Zlib) {c : ClientStreamingCallState}
    (hr : c.responded = false) (s : Status) (respBytes : Bytes) :
    (c.sendResponse z s respBytes).2 =
      some (handlerReply z c.ctx c.maxResponseSize s respBytes) := by
  rw [sendResponse, if_neg (by rw [hr]; decide), handlerReply]
  cases hok : s.isOk with
  | false => rfl
  | true =>
      -- its check passes over an empty response, which is within every limit
      cases respBytes with
      | nil => simp
      | cons b rest =>
          by_cases hmax : c.maxResponseSize < (b :: rest).length
          · rw [if_pos (by simpa using hmax), if_neg (by decide), if_pos hmax]
          · rw [if_neg (by simpa using hmax), if_neg (by decide), if_neg hmax]
            rfl

/-- A trailers-only reply with an error. -/
theorem honest_error {s reported : Status} {respBytes : Bytes} {maxResponseSize : Nat}
    {trailing : MetadataMap} {out : HeaderMap}
    (hout : Multimap.find (text "grpc-status") out = none) (herr : reported.isOk = false)
    (hread : extractTrailerStatus (buildTrailers reported trailing out) = reported)
    (hrefused : s.isOk = true → reported.code = .resourceExhausted)
    (hfailed : s.isOk = false → reported = s) :
    ReportsHonestly s respBytes maxResponseSize ⟨buildTrailers reported trailing out, none⟩ := by
  intro lens
  refine ⟨?_, fun hok _ => ⟨_, rfl, ?_⟩, fun hbad => ⟨_, rfl, ?_⟩⟩
  · intro pre item post h hitems hblock hok
    -- the only block is the header block
    have hitem : item = .headers (buildTrailers reported trailing out) := by
      have hmem : item ∈ [WireItem.headers (buildTrailers reported trailing out)] :=
        (show [WireItem.headers _] = pre ++ item :: post from hitems) ▸ by simp
      exact List.mem_singleton.1 hmem
    subst hitem
    cases hblock
    rw [isOk_of_reportsOk hout hok] at herr
    cases herr
  · rw [hread]
    exact hrefused hok
  · rw [hread]
    exact hfailed hbad

/-- A response that fits in a frame. -/
theorem honest_body (z : Zlib) {s : Status} (hok : s.isOk = true) {respBytes : Bytes}
    {maxResponseSize : Nat} (hmax : respBytes.length ≤ maxResponseSize)
    (hlen : respBytes.length < 2 ^ 32) (initial trailing : MetadataMap) :
    ReportsHonestly s respBytes maxResponseSize
      ⟨metadataToNghttp2Headers initial (addCommonHeaders z []),
        some ⟨(encodeFrame 0 respBytes).getD [], 0, buildTrailers s trailing []⟩⟩ := by
  have hframe : encodeFrame 0 respBytes = some (frameOf respBytes) := encodeFrame_frameOf hlen
  intro lens
  refine ⟨?_, fun _ hrefused => ?_, fun hbad => by rw [hok] at hbad; cases hbad⟩
  · -- the header block reports nothing, and the body only behind its frame
    have hbody := okAfter_items hframe (buildTrailers s trailing []) lens (Nat.zero_le _)
    have hall : OkAfter respBytes [] (Reply.items
        ⟨metadataToNghttp2Headers initial (addCommonHeaders z []),
          some ⟨(encodeFrame 0 respBytes).getD [], 0, buildTrailers s trailing []⟩⟩ lens) := by
      refine ⟨fun h hblock hreport => ?_, ?_⟩
      · cases hblock
        exact absurd hreport (not_reportsOk_head z initial)
      · rw [hframe]
        exact hbody
    intro pre item post h hitems hblock hreport
    exact hall.split hitems hblock hreport
  · rcases hrefused with hlarge | hnone
    · omega
    · rw [hframe] at hnone
      cases hnone

/-- A response that passes the check and does not fit in a frame is answered as if it had none. -/
theorem not_honest_body (z : Zlib) {s : Status} (hok : s.isOk = true) {respBytes : Bytes}
    {maxResponseSize : Nat} (hlen : 2 ^ 32 ≤ respBytes.length) (initial trailing : MetadataMap) :
    ¬ ReportsHonestly s respBytes maxResponseSize
      ⟨metadataToNghttp2Headers initial (addCommonHeaders z []),
        some ⟨(encodeFrame 0 respBytes).getD [], 0, buildTrailers s trailing []⟩⟩ := by
  intro h
  have hnone : encodeFrame 0 respBytes = none := encodeFrame_eq_none hlen
  -- one poll emits the trailers behind an empty frame
  obtain ⟨block, hitems, _⟩ := (h [1]).refused hok (Or.inr hnone)
  rw [hnone] at hitems
  cases hitems

theorem reportsHonestly_handlerReply (z : Zlib) (ctx : ServerContext) (maxResponseSize : Nat)
    (s : Status) (respBytes : Bytes) :
    ReportsHonestly s respBytes maxResponseSize
        (handlerReply z ctx maxResponseSize s respBytes) ↔
      ¬ Unframeable s respBytes maxResponseSize := by
  rw [handlerReply]
  -- a status that is not `OK`, a response over the limit, and one within it
  by_cases hbad : s.isOk = false
  · rw [if_pos hbad]
    have hfits : ¬ Unframeable s respBytes maxResponseSize := by
      intro hun
      rw [hun.1] at hbad
      cases hbad
    constructor
    · intro _
      exact hfits
    · intro _
      refine honest_error (find_common_eq_none (by decide) (by decide) (by decide) _) hbad
        (extractTrailerStatus_head z s _ _) ?_ fun _ => rfl
      intro hok
      rw [hbad] at hok
      cases hok
  have hok : s.isOk = true := by simpa using hbad
  rw [if_neg hbad]
  by_cases hmax : maxResponseSize < respBytes.length
  · rw [if_pos hmax]
    constructor
    · intro _ hun
      exact absurd hun.2.2 (Nat.not_le.2 hmax)
    · intro _
      refine honest_error (by rfl) (by rfl) (extractTrailerStatus_head z responseTooLarge [] [])
        (fun _ => rfl) ?_
      intro hfail
      exact absurd hfail hbad
  · rw [if_neg hmax]
    -- within the limit, `encodeFrame` decides, and nobody looks at its answer
    rcases Nat.lt_or_ge respBytes.length (2 ^ 32) with hlen | hlen
    · constructor
      · intro _ hun
        have hlarge := hun.2.1
        omega
      · intro _
        exact honest_body z hok (Nat.not_lt.1 hmax) hlen _ _
    · constructor
      · intro h
        exact absurd h (not_honest_body z hok hlen _ _)
      · intro hun
        exact absurd ⟨hok, hlen, Nat.not_lt.1 hmax⟩ hun

/-- **`OK` is reported with its message**, by `SendResponse` of both call states, unless a response
that passes the check of its size does not fit in a frame. -/
theorem reportsHonestly_iff (z : Zlib) (s : Status) (respBytes : Bytes) :
    (∀ (c : ServerCallState) (r : Reply), (c.sendResponse z s respBytes).2 = some r →
      (ReportsHonestly s respBytes c.maxResponseSize r ↔
        ¬ Unframeable s respBytes c.maxResponseSize)) ∧
    (∀ (c : ClientStreamingCallState) (r : Reply), (c.sendResponse z s respBytes).2 = some r →
      (ReportsHonestly s respBytes c.maxResponseSize r ↔
        ¬ Unframeable s respBytes c.maxResponseSize)) := by
  constructor
  · intro c r hr
    cases hresponded : c.responded with
    | true => simp [ServerCallState.sendResponse, hresponded] at hr
    | false =>
        rw [c.sendResponse_eq z hresponded, Option.some.injEq] at hr
        rw [← hr]
        exact reportsHonestly_handlerReply z _ _ s respBytes
  · intro c r hr
    cases hresponded : c.responded with
    | true => simp [ClientStreamingCallState.sendResponse, hresponded] at hr
    | false =>
        rw [c.sendResponse_eq z hresponded, Option.some.injEq] at hr
        rw [← hr]
        exact reportsHonestly_handlerReply z _ _ s respBytes

/-- A response of `2 ^ 32` bytes under a limit of as many ends as `OK` without a message. -/
theorem not_reportsHonestly_unframeable :
    ∃ r, ((ServerCallState.new 0 0 (2 ^ 32) []).sendResponse Zlib.none Status.okStatus
        (List.replicate (2 ^ 32) 0)).2 = some r ∧
      ¬ ReportsHonestly Status.okStatus (List.replicate (2 ^ 32) 0) (2 ^ 32) r := by
  have hlen : (List.replicate (2 ^ 32) (0 : UInt8)).length = 2 ^ 32 := List.length_replicate
  generalize List.replicate (2 ^ 32) (0 : UInt8) = respBytes at hlen ⊢
  refine ⟨_, ServerCallState.sendResponse_eq Zlib.none rfl Status.okStatus respBytes, ?_⟩
  rw [show (ServerCallState.new 0 0 (2 ^ 32) []).maxResponseSize = 2 ^ 32 from rfl,
    reportsHonestly_handlerReply]
  intro h
  exact h ⟨rfl, Nat.le_of_eq hlen.symm, Nat.le_of_eq hlen⟩

end Rpcpio.Server
