import Rpcpio.Protocol.Metadata

/-!
# Header blocks, metadata and trailers

Conversions between header blocks and application metadata, and the encoding of a status in the
trailing header block. Application metadata never carries a reserved key, so it cannot shadow the
status headers (`find_metadataToNghttp2Headers`); hence `extractTrailerStatus` reads back the status
`buildTrailers` wrote, whatever metadata goes with it (`status_round_trip`).
-/

set_option autoImplicit false

namespace Rpcpio.Protocol

open Rpcpio.Library

/-- `header_value`. -/
structure HeaderValue where
  value : Bytes
  sensitive : Bool
  deriving DecidableEq, Repr

/-- `header_map`. -/
abbrev HeaderMap := Multimap Bytes HeaderValue

/-- A header value that is not marked sensitive. -/
def plain (v : Bytes) : HeaderValue := ⟨v, false⟩

/-- `s.find(sub) != npos`. -/
def containsBytes (sub s : Bytes) : Bool := s.tails.any fun t => sub.isPrefixOf t

/-- The header is there and its value contains `sub`. -/
def headerContains (name sub : Bytes) (h : HeaderMap) : Bool :=
  match Multimap.find name h with
  | none => false
  | some v => containsBytes sub v.value

/-- `IsHttp2Pseudo`. -/
def isHttp2Pseudo (k : Bytes) : Bool := (text ":").isPrefixOf k

/-- The header names `IsGrpcInternal` lists. -/
def kSkip : List Bytes :=
  [text "grpc-status", text "grpc-message", text "grpc-status-details-bin", text "grpc-encoding",
    text "grpc-accept-encoding", text "grpc-timeout", text "content-type", text "te"]

/-- `IsGrpcInternal`. -/
def isGrpcInternal (k : Bytes) : Bool := kSkip.contains k

/-- The loop of `Nghttp2HeadersToMetadata`; on overflow the entries already inserted stay. -/
def headersToMetadataLoop (maxSize : Nat) : HeaderMap → Nat → MetadataMap → Status × MetadataMap
  | [], _, out => (Status.okStatus, out)
  | (name, hv) :: rest, total, out =>
      if isHttp2Pseudo name || isGrpcInternal name || !isValidKey name then
        headersToMetadataLoop maxSize rest total out
      else
        let value := if isBinaryKey name then decodeBase64 hv.value else hv.value
        let total' := total + (name.length + value.length)
        if maxSize < total' then
          (Status.of .resourceExhausted (text "metadata size exceeds limit"), out)
        else headersToMetadataLoop maxSize rest total' (Multimap.emplace name value out)

/-- `Nghttp2HeadersToMetadata`. -/
def nghttp2HeadersToMetadata (headers : HeaderMap) (out : MetadataMap) (maxSize : Nat) :
    Status × MetadataMap :=
  headersToMetadataLoop maxSize headers (totalSize out) out

/-- `MetadataToNghttp2Headers`: invalid and reserved keys are skipped. -/
def metadataToNghttp2Headers : MetadataMap → HeaderMap → HeaderMap
  | [], out => out
  | (key, value) :: rest, out =>
      if !isValidKey key || isReservedKey key then metadataToNghttp2Headers rest out
      else
        let encoded := if isBinaryKey key then encodeBase64 value else value
        metadataToNghttp2Headers rest (Multimap.emplace key (plain encoded) out)

/-- The digit loop of `ParseGrpcStatus`. -/
def parseGrpcStatusLoop (code : Nat) : Bytes → Option Nat
  | [] => some code
  | c :: cs =>
      if c < 48 || 57 < c then none
      else
        let code' := code * 10 + (c.toNat - 48)
        if 16 < code' then none else parseGrpcStatusLoop code' cs

/-- `ParseGrpcStatus`. -/
def parseGrpcStatus (value : Bytes) : StatusCode :=
  let negative := (text "-").isPrefixOf value
  match parseGrpcStatusLoop 0 (if negative then value.drop 1 else value) with
  | none => .unknown
  | some code => if negative then .unknown else StatusCode.fromInt code

/-- `ParseGrpcMessage`. -/
def parseGrpcMessage (value : Bytes) : Bytes := percentDecode value

/-- `ParseGrpcStatusDetails`. -/
def parseGrpcStatusDetails (value : Bytes) : Bytes := decodeBase64 value

/-- The status reported when no `grpc-status` is found. -/
def missingGrpcStatus : Status := Status.of .unknown (text "missing grpc-status trailer")

/-- `ExtractTrailerStatus` on a header block. -/
def extractTrailerStatus (trailers : HeaderMap) : Status :=
  match Multimap.find (text "grpc-status") trailers with
  | none => missingGrpcStatus
  | some v =>
      { code := parseGrpcStatus v.value
        message := match Multimap.find (text "grpc-message") trailers with
          | none => []
          | some m => parseGrpcMessage m.value
        details := match Multimap.find (text "grpc-status-details-bin") trailers with
          | none => []
          | some d => parseGrpcStatusDetails d.value }

/-- The optional `grpc-message` header of `BuildTrailers`. -/
def addMessage (message : Bytes) (out : HeaderMap) : HeaderMap :=
  if message.isEmpty then out
  else Multimap.emplace (text "grpc-message") (plain (percentEncode message)) out

/-- The optional `grpc-status-details-bin` header of `BuildTrailers`. -/
def addDetails (details : Bytes) (out : HeaderMap) : HeaderMap :=
  if details.isEmpty then out
  else Multimap.emplace (text "grpc-status-details-bin") (plain (encodeBase64 details)) out

/-- `BuildTrailers`. -/
def buildTrailers (status : Status) (trailingMetadata : MetadataMap) (out : HeaderMap) :
    HeaderMap :=
  metadataToNghttp2Headers trailingMetadata
    (addDetails status.details
      (addMessage status.message
        (Multimap.emplace (text "grpc-status") (plain (decimal status.code.toNat)) out)))

/-- **Application metadata cannot shadow a reserved header.** -/
theorem find_metadataToNghttp2Headers {k : Bytes} (hk : isReservedKey k = true)
    (m : MetadataMap) (out : HeaderMap) :
    Multimap.find k (metadataToNghttp2Headers m out) = Multimap.find k out := by
  induction m generalizing out with
  | nil => rfl
  | cons e m ih =>
      obtain ⟨key, value⟩ := e
      rw [metadataToNghttp2Headers]
      split
      · exact ih out
      · rename_i hkey
        have hne : key ≠ k := by
          intro h
          subst h
          simp [hk] at hkey
        rw [ih, Multimap.find_emplace_of_ne hne]

theorem find_addMessage_of_ne {k : Bytes} (hk : text "grpc-message" ≠ k) (message : Bytes)
    (out : HeaderMap) : Multimap.find k (addMessage message out) = Multimap.find k out := by
  simp only [addMessage]
  split
  · rfl
  · exact Multimap.find_emplace_of_ne hk _ _

theorem find_addDetails_of_ne {k : Bytes} (hk : text "grpc-status-details-bin" ≠ k)
    (details : Bytes) (out : HeaderMap) :
    Multimap.find k (addDetails details out) = Multimap.find k out := by
  unfold addDetails
  split
  · rfl
  · exact Multimap.find_emplace_of_ne hk _ _

/-- Every canonical code is read back from its decimal numeral. -/
theorem parseGrpcStatus_decimal (c : StatusCode) : parseGrpcStatus (decimal c.toNat) = c := by
  cases c <;> decide

/-- The `grpc-status` header of built trailers. -/
theorem find_status_buildTrailers {out : HeaderMap}
    (h : Multimap.find (text "grpc-status") out = none) (s : Status) (m : MetadataMap) :
    Multimap.find (text "grpc-status") (buildTrailers s m out) =
      some (plain (decimal s.code.toNat)) := by
  rw [buildTrailers, find_metadataToNghttp2Headers (by decide), find_addDetails_of_ne (by decide),
    find_addMessage_of_ne (by decide), Multimap.find_emplace_self h]

/-- The `grpc-message` header of built trailers. -/
theorem find_message_buildTrailers {out : HeaderMap}
    (h : Multimap.find (text "grpc-message") out = none) (s : Status) (m : MetadataMap) :
    Multimap.find (text "grpc-message") (buildTrailers s m out) =
      if s.message.isEmpty then none else some (plain (percentEncode s.message)) := by
  have hbase : Multimap.find (text "grpc-message")
      (Multimap.emplace (text "grpc-status") (plain (decimal s.code.toNat)) out) = none := by
    rw [Multimap.find_emplace_of_ne (by decide), h]
  rw [buildTrailers, find_metadataToNghttp2Headers (by decide), find_addDetails_of_ne (by decide),
    addMessage]
  split
  · exact hbase
  · exact Multimap.find_emplace_self hbase _

/-- The `grpc-status-details-bin` header of built trailers. -/
theorem find_details_buildTrailers {out : HeaderMap}
    (h : Multimap.find (text "grpc-status-details-bin") out = none) (s : Status)
    (m : MetadataMap) :
    Multimap.find (text "grpc-status-details-bin") (buildTrailers s m out) =
      if s.details.isEmpty then none else some (plain (encodeBase64 s.details)) := by
  have hbase : Multimap.find (text "grpc-status-details-bin") (addMessage s.message
      (Multimap.emplace (text "grpc-status") (plain (decimal s.code.toNat)) out)) = none := by
    rw [find_addMessage_of_ne (by decide), Multimap.find_emplace_of_ne (by decide), h]
  rw [buildTrailers, find_metadataToNghttp2Headers (by decide), addDetails]
  split
  · exact hbase
  · exact Multimap.find_emplace_self hbase _

/-- Built trailers leave the other reserved headers of the block. -/
theorem find_buildTrailers_of_ne {k : Bytes} (hk : isReservedKey k = true)
    (hs : text "grpc-status" ≠ k) (hm : text "grpc-message" ≠ k)
    (hd : text "grpc-status-details-bin" ≠ k) (s : Status) (m : MetadataMap) (out : HeaderMap) :
    Multimap.find k (buildTrailers s m out) = Multimap.find k out := by
  rw [buildTrailers, find_metadataToNghttp2Headers hk, find_addDetails_of_ne hd,
    find_addMessage_of_ne hm, Multimap.find_emplace_of_ne hs]

/-- **The status written into a trailing block is read back unchanged.** -/
theorem extractTrailerStatus_buildTrailers {out : HeaderMap} (s : Status) (m : MetadataMap)
    (hs : Multimap.find (text "grpc-status") out = none)
    (hm : Multimap.find (text "grpc-message") out = none)
    (hd : Multimap.find (text "grpc-status-details-bin") out = none) :
    extractTrailerStatus (buildTrailers s m out) = s := by
  rw [extractTrailerStatus, find_status_buildTrailers hs, find_message_buildTrailers hm,
    find_details_buildTrailers hd]
  obtain ⟨code, message, details⟩ := s
  simp only [plain, parseGrpcStatus_decimal, Status.mk.injEq, true_and]
  constructor
  · by_cases he : message.isEmpty
    · simp only [if_pos he]
      exact (List.isEmpty_iff.1 he).symm
    · simp only [if_neg he]
      exact percentDecode_percentEncode message
  · by_cases he : details.isEmpty
    · simp only [if_pos he]
      exact (List.isEmpty_iff.1 he).symm
    · simp only [if_neg he]
      exact decodeBase64_encodeBase64 details

/-! ## The message on the wire -/

/-- Application metadata adds no entry under a reserved key. -/
theorem mem_metadataToNghttp2Headers {m : MetadataMap} {out : HeaderMap} {e : Bytes × HeaderValue}
    (he : e ∈ metadataToNghttp2Headers m out) (hk : isReservedKey e.1 = true) : e ∈ out := by
  induction m generalizing out with
  | nil => exact he
  | cons entry m ih =>
      obtain ⟨key, value⟩ := entry
      rw [metadataToNghttp2Headers] at he
      split at he
      · exact ih he
      · rename_i hkey
        rcases Multimap.mem_emplace.1 (ih he) with rfl | hout
        · -- the entry just emplaced passed the check for reserved keys
          simp [hk] at hkey
        · exact hout

/-- An entry under another key was there before `BuildTrailers` added the message. -/
theorem mem_addMessage_of_ne {message : Bytes} {out : HeaderMap} {e : Bytes × HeaderValue}
    (he : e ∈ addMessage message out) (hk : e.1 ≠ text "grpc-message") : e ∈ out := by
  unfold addMessage at he
  split at he
  · exact he
  · rcases Multimap.mem_emplace.1 he with rfl | hmem
    · exact absurd rfl hk
    · exact hmem

/-- An entry under another key was there before `BuildTrailers` added the details. -/
theorem mem_addDetails_of_ne {details : Bytes} {out : HeaderMap} {e : Bytes × HeaderValue}
    (he : e ∈ addDetails details out) (hk : e.1 ≠ text "grpc-status-details-bin") : e ∈ out := by
  unfold addDetails at he
  split at he
  · exact he
  · rcases Multimap.mem_emplace.1 he with rfl | hmem
    · exact absurd rfl hk
    · exact hmem

/-- A status entry of built trailers holds the code. -/
theorem status_of_mem_buildTrailers {out : HeaderMap}
    (h : Multimap.find (text "grpc-status") out = none) {s : Status} {m : MetadataMap}
    {e : Bytes × HeaderValue} (he : e ∈ buildTrailers s m out) (hk : e.1 = text "grpc-status") :
    e.2 = plain (decimal s.code.toNat) := by
  have hbase := mem_metadataToNghttp2Headers he (by rw [hk]; decide)
  have hmem := mem_addMessage_of_ne (mem_addDetails_of_ne hbase (by rw [hk]; decide))
    (by rw [hk]; decide)
  rcases Multimap.mem_emplace.1 hmem with rfl | hout
  · rfl
  · exact absurd hk (Multimap.find_eq_none.1 h e hout)

/-- A message entry of built trailers holds the encoded message. -/
theorem message_of_mem_buildTrailers {out : HeaderMap}
    (h : Multimap.find (text "grpc-message") out = none) {s : Status} {m : MetadataMap}
    {e : Bytes × HeaderValue} (he : e ∈ buildTrailers s m out) (hk : e.1 = text "grpc-message") :
    e.2 = plain (percentEncode s.message) := by
  have hbase := mem_metadataToNghttp2Headers he (by rw [hk]; decide)
  have hmessage := mem_addDetails_of_ne hbase (by rw [hk]; decide)
  have hrest : e ∉ Multimap.emplace (text "grpc-status") (plain (decimal s.code.toNat)) out := by
    intro hmem
    rcases Multimap.mem_emplace.1 hmem with rfl | hout
    · exact absurd (show text "grpc-status" = text "grpc-message" from hk) (by decide)
    · exact Multimap.find_eq_none.1 h e hout hk
  unfold addMessage at hmessage
  split at hmessage
  · exact absurd hmessage hrest
  · rcases Multimap.mem_emplace.1 hmessage with rfl | hmem
    · rfl
    · exact absurd hmem hrest

/-- **Status round trip.** Whatever bytes the message and the details hold and whatever metadata
goes with them, the status is read back unchanged, and its message travels as visible ASCII. -/
theorem status_round_trip {out : HeaderMap} (s : Status) (m : MetadataMap)
    (hs : Multimap.find (text "grpc-status") out = none)
    (hm : Multimap.find (text "grpc-message") out = none)
    (hd : Multimap.find (text "grpc-status-details-bin") out = none) :
    extractTrailerStatus (buildTrailers s m out) = s ∧
      ∀ e ∈ buildTrailers s m out, e.1 = text "grpc-message" →
        ∀ c ∈ e.2.value, 0x21 ≤ c ∧ c ≤ 0x7E := by
  refine ⟨extractTrailerStatus_buildTrailers s m hs hm hd, ?_⟩
  intro e he hk
  rw [message_of_mem_buildTrailers hm he hk]
  exact percentEncode_visible s.message

/-- An instance: a message with a raw percent sign next to digits, binary details, and metadata
that tries to set the status itself. -/
theorem status_round_trip_example :
    let s : Status := ⟨.notFound, text "100%2 gone", [0, 255]⟩
    let m : MetadataMap := [(text "grpc-status", text "0"), (text "x", text "y")]
    let out : HeaderMap := [(text "content-type", plain (text "application/grpc"))]
    extractTrailerStatus (buildTrailers s m out) = s ∧
      ∀ e ∈ buildTrailers s m out, e.1 = text "grpc-message" →
        ∀ c ∈ e.2.value, 0x21 ≤ c ∧ c ≤ 0x7E :=
  status_round_trip _ _ (by decide) (by decide) (by decide)

end Rpcpio.Protocol
