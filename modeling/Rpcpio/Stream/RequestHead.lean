import Rpcpio.Protocol.MetadataTransfer
import Rpcpio.Stream.DeadlineArithmetic

/-!
# The head of a request

What a call hands to the session when it is submitted: the URI, the request headers and, for a
single message, its frame. `SubmitCall` builds the same headers as `BuildStreamingGrpcHeaders`.

Application metadata cannot shadow what the channel writes (`find_reserved_build`), and what a peer
reads as metadata are the entries of the context and the user agent (`applicationEntries_build`).
The URI of a host without a slash splits in one way (`splitsUrl_requestUri`).
-/

set_option autoImplicit false

namespace Rpcpio.Stream

open Rpcpio.Library Rpcpio.Protocol

/-- The members of `ChannelImpl` that the head of a request is built from; `userAgent` and the two
flags are those of its `ChannelOptions`. -/
structure ChannelOrigin where
  host : Bytes
  port : Nat
  useTls : Bool
  useH2c : Bool
  userAgent : Bytes
  deriving DecidableEq, Repr

/-- The members of `ClientContext` that the head of a request is built from. Metadata is added with
`AddMetadata` only. -/
structure OutgoingContext where
  deadline : Option Int
  sendMetadata : MetadataMap
  compressionAlgorithm : Bytes
  added : ∃ entries, addEntries entries = some sendMetadata

/-- A new context. -/
def OutgoingContext.new : OutgoingContext := ⟨none, [], text "identity", [], rfl⟩

/-- `RequestUri`. -/
def requestUri (ch : ChannelOrigin) (path : Bytes) : Bytes :=
  (if ch.useTls && !ch.useH2c then text "https://" else text "http://") ++ ch.host ++ text ":" ++
    decimal ch.port ++ path

/-- The headers of every request. -/
def fixedHeaders (userAgent : Bytes) : HeaderMap :=
  Multimap.emplace (text "user-agent") (plain userAgent)
    (Multimap.emplace (text "te") (plain (text "trailers"))
      (Multimap.emplace (text "content-type") (plain (text "application/grpc+proto")) []))

/-- The `grpc-encoding` header. -/
def addEncoding (algorithm : Bytes) (hdrs : HeaderMap) : HeaderMap :=
  if algorithm = text "identity" then hdrs
  else Multimap.emplace (text "grpc-encoding") (plain algorithm) hdrs

/-- `BuildStreamingGrpcHeaders`, at the time `now`. -/
def buildStreamingGrpcHeaders (userAgent : Bytes) (ctx : Option OutgoingContext) (now : Int) :
    Except Status HeaderMap :=
  match ctx with
  | none => .ok (fixedHeaders userAgent)
  | some ctx =>
      match addTimeout ctx.deadline now (fixedHeaders userAgent) with
      | .error s => .error s
      | .ok hdrs =>
          .ok (metadataToNghttp2Headers ctx.sendMetadata
            (addEncoding ctx.compressionAlgorithm hdrs))

/-- What `session::submit` is called with; a request without a frame has a generator. -/
structure Submission where
  method : Bytes
  uri : Bytes
  frame : Option Bytes
  headers : HeaderMap
  deriving DecidableEq, Repr

/-- The status of a request message over the 32-bit length. -/
def requestTooLarge : Status := Status.of .resourceExhausted (text "request too large")

/-- What `SubmitCall` and `SubmitServerStreamingCall` submit. -/
def submitMessage (ch : ChannelOrigin) (path : Bytes) (ctx : Option OutgoingContext) (now : Int)
    (reqBytes : Bytes) : Except Status Submission :=
  match buildStreamingGrpcHeaders ch.userAgent ctx now with
  | .error s => .error s
  | .ok hdrs =>
      match encodeFrame 0 reqBytes with
      | none => .error requestTooLarge
      | some frame => .ok ⟨text "POST", requestUri ch path, some frame, hdrs⟩

/-- What `SubmitClientStreamingCall` and `SubmitBidiStreamingCall` submit. -/
def submitGenerator (ch : ChannelOrigin) (path : Bytes) (ctx : Option OutgoingContext)
    (now : Int) : Except Status Submission :=
  match buildStreamingGrpcHeaders ch.userAgent ctx now with
  | .error s => .error s
  | .ok hdrs => .ok ⟨text "POST", requestUri ch path, none, hdrs⟩

/-! ## The headers -/

/-- The metadata of a context is sorted and under settable keys. -/
theorem OutgoingContext.settable (ctx : OutgoingContext) :
    Multimap.Sorted ctx.sendMetadata ∧ ∀ e ∈ ctx.sendMetadata, isSettable e.1 = true := by
  obtain ⟨entries, h⟩ := ctx.added
  exact addEntries_settable h

/-- The `grpc-timeout` header, if there is one. -/
theorem addTimeout_cases {deadline : Option Int} {now : Int} {hdrs hdrs' : HeaderMap}
    (h : addTimeout deadline now hdrs = .ok hdrs') :
    (hdrs' = hdrs ∧ (deadline = none ∨ formatTimeout (deadlineFromNow deadline now) = [])) ∨
      (hdrs' = Multimap.emplace (text "grpc-timeout")
          (plain (formatTimeout (deadlineFromNow deadline now))) hdrs ∧
        deadline.isSome = true ∧ formatTimeout (deadlineFromNow deadline now) ≠ []) := by
  cases deadline with
  | none =>
      cases h
      exact Or.inl ⟨rfl, Or.inl rfl⟩
  | some d =>
      rw [addTimeout_some] at h
      split at h
      · cases h
      · split at h
        · rename_i hempty
          cases h
          exact Or.inl ⟨rfl, Or.inr (List.isEmpty_iff.1 hempty)⟩
        · rename_i hne
          cases h
          exact Or.inr ⟨rfl, rfl, fun hnil => hne (List.isEmpty_iff.2 hnil)⟩

theorem find_addEncoding_of_ne {k : Bytes} (hk : text "grpc-encoding" ≠ k) (algorithm : Bytes)
    (hdrs : HeaderMap) :
    Multimap.find k (addEncoding algorithm hdrs) = Multimap.find k hdrs := by
  unfold addEncoding
  split
  · rfl
  · exact Multimap.find_emplace_of_ne hk _ _

/-- Built headers, with the block in front of the metadata. -/
theorem build_eq {userAgent : Bytes} {ctx : OutgoingContext} {now : Int} {hdrs : HeaderMap}
    (h : buildStreamingGrpcHeaders userAgent (some ctx) now = .ok hdrs) :
    ∃ timed, addTimeout ctx.deadline now (fixedHeaders userAgent) = .ok timed ∧
      hdrs = metadataToNghttp2Headers ctx.sendMetadata
        (addEncoding ctx.compressionAlgorithm timed) := by
  simp only [buildStreamingGrpcHeaders] at h
  split at h
  · cases h
  · rename_i timed htimed
    cases h
    exact ⟨timed, htimed, rfl⟩

/-- **Metadata shadows no header of the channel.** -/
theorem find_reserved_build {userAgent : Bytes} {ctx : OutgoingContext} {now : Int}
    {hdrs : HeaderMap} (h : buildStreamingGrpcHeaders userAgent (some ctx) now = .ok hdrs)
    {k : Bytes} (hk : isReservedKey k = true) (ht : text "grpc-timeout" ≠ k)
    (he : text "grpc-encoding" ≠ k) :
    Multimap.find k hdrs = Multimap.find k (fixedHeaders userAgent) := by
  obtain ⟨timed, htimed, rfl⟩ := build_eq h
  rw [find_metadataToNghttp2Headers hk, find_addEncoding_of_ne he]
  rcases addTimeout_cases htimed with ⟨rfl, _⟩ | ⟨rfl, _⟩
  · rfl
  · exact Multimap.find_emplace_of_ne ht _ _

/-- The encoding that the request announces. -/
theorem find_encoding_build {userAgent : Bytes} {ctx : OutgoingContext} {now : Int}
    {hdrs : HeaderMap} (h : buildStreamingGrpcHeaders userAgent (some ctx) now = .ok hdrs) :
    Multimap.find (text "grpc-encoding") hdrs =
      if ctx.compressionAlgorithm = text "identity" then none
      else some (plain ctx.compressionAlgorithm) := by
  obtain ⟨timed, htimed, rfl⟩ := build_eq h
  have hnone : Multimap.find (text "grpc-encoding") timed = none := by
    rcases addTimeout_cases htimed with ⟨rfl, _⟩ | ⟨rfl, _⟩
    · rfl
    · rw [Multimap.find_emplace_of_ne (by decide)]
      rfl
  rw [find_metadataToNghttp2Headers (by decide), addEncoding]
  split
  · exact hnone
  · exact Multimap.find_emplace_self hnone _

/-- The timeout that the request announces. -/
theorem find_timeout_build {userAgent : Bytes} {ctx : OutgoingContext} {now : Int}
    {hdrs : HeaderMap} (h : buildStreamingGrpcHeaders userAgent (some ctx) now = .ok hdrs) :
    Multimap.find (text "grpc-timeout") hdrs =
      if ctx.deadline.isSome ∧ formatTimeout (deadlineFromNow ctx.deadline now) ≠ [] then
        some (plain (formatTimeout (deadlineFromNow ctx.deadline now)))
      else none := by
  obtain ⟨timed, htimed, rfl⟩ := build_eq h
  rw [find_metadataToNghttp2Headers (by decide), find_addEncoding_of_ne (by decide)]
  rcases addTimeout_cases htimed with ⟨rfl, hnone⟩ | ⟨rfl, hheader⟩
  · rw [if_neg]
    · rfl
    · rintro ⟨hsome, hne⟩
      rcases hnone with hnone | hnil
      · simp [hnone] at hsome
      · exact hne hnil
  · have hbase : Multimap.find (text "grpc-timeout") (fixedHeaders userAgent) = none := rfl
    rw [Multimap.find_emplace_self hbase, if_pos hheader]

/-! ## What a peer reads as metadata -/

instance : IsStrictTotalOrder Bytes (· < ·) where

/-- The application entries of a block with one more header. -/
theorem applicationEntries_emplace {h : HeaderMap} (hsorted : Multimap.Sorted h) (k : Bytes)
    (v : HeaderValue) :
    applicationEntries (Multimap.emplace k v h) =
      if isApplicationHeader k then
        Multimap.emplace k (headerEntry (k, v)).2 (applicationEntries h)
      else applicationEntries h := by
  cases happ : isApplicationHeader k with
  | true =>
      rw [if_pos rfl, applicationEntries,
        Multimap.filter_emplace (p := fun h => isApplicationHeader h.1) hsorted happ]
      exact Multimap.map_emplace
        (fun k v => if isBinaryKey k then decodeBase64 v.value else v.value) k v _
  | false =>
      rw [if_neg (by simp), applicationEntries,
        Multimap.filter_emplace_of_not (p := fun h => isApplicationHeader h.1) happ]
      rfl

/-- The headers of metadata add its entries. -/
theorem applicationEntries_emplaceAll {m : MetadataMap} (hset : ∀ e ∈ m, isSettable e.1 = true)
    {h : HeaderMap} (hsorted : Multimap.Sorted h) :
    applicationEntries (Multimap.emplaceAll (m.map entryHeader) h) =
      Multimap.emplaceAll m (applicationEntries h) := by
  -- on the entries: each header is read back as its entry
  induction m generalizing h with
  | nil => rfl
  | cons e m ih =>
      have happ : isApplicationHeader (entryHeader e).1 = true :=
        isApplicationHeader_of_isSettable (hset e List.mem_cons_self)
      rw [List.map_cons, Multimap.emplaceAll_cons,
        ih (fun x hx => hset x (List.mem_cons_of_mem _ hx)) (Multimap.sorted_emplace hsorted _ _),
        applicationEntries_emplace hsorted, if_pos happ, headerEntry_entryHeader]
      rfl

theorem sorted_fixedHeaders (userAgent : Bytes) : Multimap.Sorted (fixedHeaders userAgent) :=
  Multimap.sorted_emplace (Multimap.sorted_emplace
    (Multimap.sorted_emplace Multimap.sorted_nil _ _) _ _) _ _

theorem sorted_addEncoding {h : HeaderMap} (hsorted : Multimap.Sorted h) (algorithm : Bytes) :
    Multimap.Sorted (addEncoding algorithm h) := by
  unfold addEncoding
  split
  · exact hsorted
  · exact Multimap.sorted_emplace hsorted _ _

theorem applicationEntries_addEncoding {h : HeaderMap} (hsorted : Multimap.Sorted h)
    (algorithm : Bytes) :
    applicationEntries (addEncoding algorithm h) = applicationEntries h := by
  unfold addEncoding
  split
  · rfl
  · rw [applicationEntries_emplace hsorted, if_neg (by decide)]

/-- The block in front of the metadata is sorted, and the user agent is its only entry. -/
theorem timed_spec {userAgent : Bytes} {deadline : Option Int} {now : Int} {timed : HeaderMap}
    (h : addTimeout deadline now (fixedHeaders userAgent) = .ok timed) :
    Multimap.Sorted timed ∧ applicationEntries timed = [(text "user-agent", userAgent)] := by
  have hfixed : applicationEntries (fixedHeaders userAgent) =
      [(text "user-agent", userAgent)] := rfl
  rcases addTimeout_cases h with ⟨rfl, _⟩ | ⟨rfl, _⟩
  · exact ⟨sorted_fixedHeaders userAgent, hfixed⟩
  · refine ⟨Multimap.sorted_emplace (sorted_fixedHeaders userAgent) _ _, ?_⟩
    rw [applicationEntries_emplace (sorted_fixedHeaders userAgent), if_neg (by decide), hfixed]

/-- The metadata that a peer gets: the entries of the context, and the user agent in front of those
under the same key. -/
def announcedMetadata (userAgent : Bytes) (ctx : OutgoingContext) : MetadataMap :=
  Multimap.emplaceAll ctx.sendMetadata [(text "user-agent", userAgent)]

/-- **A peer reads the metadata of the context and the user agent**, and nothing else; the block
arrives in its order. -/
theorem applicationEntries_build {userAgent : Bytes} {ctx : OutgoingContext} {now : Int}
    {hdrs : HeaderMap} (h : buildStreamingGrpcHeaders userAgent (some ctx) now = .ok hdrs) :
    applicationEntries hdrs = announcedMetadata userAgent ctx ∧
      Multimap.emplaceAll hdrs [] = hdrs := by
  obtain ⟨timed, htimed, rfl⟩ := build_eq h
  obtain ⟨hsorted, hentries⟩ := timed_spec htimed
  obtain ⟨_, hset⟩ := ctx.settable
  have hencoded := sorted_addEncoding hsorted ctx.compressionAlgorithm
  have hfilter : (ctx.sendMetadata.filter fun e => isSettable e.1) = ctx.sendMetadata :=
    List.filter_eq_self.2 hset
  rw [metadataToNghttp2Headers_eq, hfilter]
  refine ⟨?_, ?_⟩
  · rw [applicationEntries_emplaceAll hset hencoded, applicationEntries_addEncoding hsorted,
      hentries]
    rfl
  · have hall : Multimap.Sorted ([] ++ Multimap.emplaceAll (ctx.sendMetadata.map entryHeader)
        (addEncoding ctx.compressionAlgorithm timed)) :=
      Multimap.sorted_emplaceAll hencoded _
    exact Multimap.emplaceAll_of_sorted hall

/-- The size of what a peer gets. -/
theorem totalSize_announcedMetadata (userAgent : Bytes) (ctx : OutgoingContext) :
    totalSize (announcedMetadata userAgent ctx) =
      totalSize ctx.sendMetadata + (10 + userAgent.length) := by
  rw [announcedMetadata, totalSize_perm (Multimap.emplaceAll_perm _ _)]
  simp [totalSize, text]

/-! ## The URI -/

/-- A URI splits into a scheme, an authority and a path without a query, a fragment or an escape. -/
structure SplitsUrl (uri scheme authority path : Bytes) : Prop where
  parts : uri = scheme ++ text "://" ++ authority ++ path
  scheme : (58 : UInt8) ∉ scheme
  authority : (47 : UInt8) ∉ authority
  absolute : ∃ rest, path = 47 :: rest
  plain : ∀ c ∈ path, c ≠ 35 ∧ c ≠ 37 ∧ c ≠ 63

/-- The path of a concrete URL is checked byte by byte. -/
theorem plain_of_all {path : Bytes} (h : path.all (fun c => c != 35 && c != 37 && c != 63) = true) :
    ∀ c ∈ path, c ≠ 35 ∧ c ≠ 37 ∧ c ≠ 63 := by
  intro c hc
  simpa [and_assoc] using List.all_eq_true.1 h c hc

/-- Two ways to cut a string in front of a byte agree if the byte occurs in neither first part. -/
theorem append_cons_inj {c : UInt8} {a a' b b' : Bytes} (ha : c ∉ a) (ha' : c ∉ a')
    (h : a ++ c :: b = a' ++ c :: b') : a = a' ∧ b = b' := by
  induction a generalizing a' with
  | nil =>
      cases a' with
      | nil => exact ⟨rfl, (List.cons.inj h).2⟩
      | cons x a' => exact absurd ((List.cons.inj h).1 ▸ List.mem_cons_self) ha'
  | cons x a ih =>
      cases a' with
      | nil => exact absurd ((List.cons.inj h).1 ▸ List.mem_cons_self) ha
      | cons x' a' =>
          obtain ⟨rfl, hrest⟩ := List.cons.inj h
          obtain ⟨rfl, rfl⟩ := ih (fun hm => ha (List.mem_cons_of_mem _ hm))
            (fun hm => ha' (List.mem_cons_of_mem _ hm)) hrest
          exact ⟨rfl, rfl⟩

/-- **The URI of a request splits in one way**, into the authority of the channel and the path. -/
theorem splitsUrl_requestUri {ch : ChannelOrigin} {path scheme authority path' : Bytes}
    (hhost : (47 : UInt8) ∉ ch.host) (hpath : ∃ rest, path = 47 :: rest)
    (h : SplitsUrl (requestUri ch path) scheme authority path') :
    scheme = (if ch.useTls && !ch.useH2c then text "https" else text "http") ∧
      authority = ch.host ++ text ":" ++ decimal ch.port ∧ path' = path := by
  obtain ⟨rest, rfl⟩ := hpath
  obtain ⟨rest', rfl⟩ := h.absolute
  have hdigits : (47 : UInt8) ∉ decimal ch.port := by
    intro hmem
    have hd : IsDigit 47 := asciiDigits_digits ch.port 47 hmem
    exact absurd hd (by decide)
  have hown : (47 : UInt8) ∉ ch.host ++ text ":" ++ decimal ch.port := by
    simp only [List.mem_append, not_or]
    exact ⟨⟨hhost, by decide⟩, hdigits⟩
  have huri : requestUri ch (47 :: rest) =
      (if ch.useTls && !ch.useH2c then text "https" else text "http") ++ 58 :: 47 :: 47 ::
        (ch.host ++ text ":" ++ decimal ch.port ++ 47 :: rest) := by
    unfold requestUri
    split <;> simp [text]
  have hparts := h.parts
  rw [huri, show text "://" = [58, 47, 47] from rfl] at hparts
  simp only [List.append_assoc, List.cons_append, List.nil_append] at hparts
  have hscheme : (58 : UInt8) ∉
      (if ch.useTls && !ch.useH2c then text "https" else text "http") := by
    split <;> decide
  -- cut at the colon of the scheme, and then at the first slash behind the authority
  obtain ⟨hs, hrest⟩ := append_cons_inj hscheme h.scheme hparts
  obtain ⟨_, hrest⟩ := List.cons.inj hrest
  obtain ⟨_, hrest⟩ := List.cons.inj hrest
  simp only [← List.append_assoc] at hrest
  obtain ⟨ha, hp⟩ := append_cons_inj hown h.authority hrest
  exact ⟨hs.symm, ha.symm, by rw [hp]⟩

end Rpcpio.Stream
