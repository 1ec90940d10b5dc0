import Rpcpio.Protocol.MetadataCodec

/-!
# Metadata across the wire

`Nghttp2HeadersToMetadata` inserts what the application headers of a block say, as long as the size
limit lasts (`headersToMetadataLoop_eq`). `MetadataToNghttp2Headers` writes one header for each
entry under a key the application may set, and base64 is undone on the way in, so such entries
arrive in their order (`transfer_eq`).

The two functions do not use the same list of keys. Sending skips every key with the prefix `grpc-`;
receiving skips the eight names of `kSkip`. A header with another `grpc-` name is exposed to the
application and lost when the metadata is forwarded (`forwards_iff`).
-/

set_option autoImplicit false

namespace Rpcpio.Protocol

open Rpcpio.Library

instance : IsStrictOrder Bytes (· < ·) where
  irrefl := List.lt_irrefl
  trans _ _ _ := List.lt_trans

/-- A header that `Nghttp2HeadersToMetadata` does not skip. -/
def isApplicationHeader (name : Bytes) : Bool :=
  !(isHttp2Pseudo name || isGrpcInternal name || !isValidKey name)

/-- The entry that such a header stands for. -/
def headerEntry (h : Bytes × HeaderValue) : Bytes × Bytes :=
  (h.1, if isBinaryKey h.1 then decodeBase64 h.2.value else h.2.value)

/-- The entries of a header block, in its order. -/
def applicationEntries (headers : HeaderMap) : List (Bytes × Bytes) :=
  (headers.filter fun h => isApplicationHeader h.1).map headerEntry

/-- A key the application may set. -/
def isSettable (key : Bytes) : Bool := isValidKey key && !isReservedKey key

/-- The header of an entry. -/
def entryHeader (e : Bytes × Bytes) : Bytes × HeaderValue :=
  (e.1, plain (if isBinaryKey e.1 then encodeBase64 e.2 else e.2))

/-- The status for metadata over the limit. -/
def metadataTooLarge : Status := Status.of .resourceExhausted (text "metadata size exceeds limit")

/-! ## Receiving -/

theorem totalSize_cons (e : Bytes × Bytes) (es : MetadataMap) :
    totalSize (e :: es) = e.1.length + e.2.length + totalSize es := rfl

theorem totalSize_perm {m m' : MetadataMap} (h : m.Perm m') : totalSize m = totalSize m' :=
  (h.map _).sum_nat

/-- **The receiving loop:** all entries are inserted if they fit, and otherwise the limit is
reported. -/
theorem headersToMetadataLoop_eq (maxSize : Nat) (headers : HeaderMap) (total : Nat)
    (out : MetadataMap) :
    (total + totalSize (applicationEntries headers) ≤ maxSize →
        headersToMetadataLoop maxSize headers total out =
          (Status.okStatus, Multimap.emplaceAll (applicationEntries headers) out)) ∧
      (total ≤ maxSize → maxSize < total + totalSize (applicationEntries headers) →
        (headersToMetadataLoop maxSize headers total out).1 = metadataTooLarge) := by
  -- on the headers, for any size and map so far
  induction headers generalizing total out with
  | nil =>
      constructor
      · intro _
        exact rfl
      · intro hle hlt
        rw [show totalSize (applicationEntries []) = 0 from rfl] at hlt
        omega
  | cons h headers ih =>
      obtain ⟨name, hv⟩ := h
      have hskips : (isHttp2Pseudo name || isGrpcInternal name || !isValidKey name) =
          !isApplicationHeader name := (Bool.not_not _).symm
      by_cases happ : isApplicationHeader name = true
      · have hskip : (isHttp2Pseudo name || isGrpcInternal name || !isValidKey name) = false := by
          rw [hskips, happ, Bool.not_true]
        have hentries : applicationEntries ((name, hv) :: headers) =
            headerEntry (name, hv) :: applicationEntries headers := by
          simp [applicationEntries, happ]
        rw [hentries, totalSize_cons]
        simp only [headersToMetadataLoop, hskip, Bool.false_eq_true, if_false]
        obtain ⟨hfits, hover⟩ := ih (total + ((headerEntry (name, hv)).1.length +
          (headerEntry (name, hv)).2.length))
          (Multimap.emplace (headerEntry (name, hv)).1 (headerEntry (name, hv)).2 out)
        constructor
        · intro hle
          have hnot : ¬ maxSize < total + ((headerEntry (name, hv)).1.length +
              (headerEntry (name, hv)).2.length) := by omega
          exact (if_neg hnot).trans (hfits (by omega))
        · intro hle hlt
          -- the limit is passed by this header, or by a later one
          by_cases hnow : maxSize < total + ((headerEntry (name, hv)).1.length +
              (headerEntry (name, hv)).2.length)
          · exact congrArg Prod.fst (if_pos hnow)
          · exact (congrArg Prod.fst (if_neg hnow)).trans (hover (by omega) (by omega))
      · have hskip : (isHttp2Pseudo name || isGrpcInternal name || !isValidKey name) = true := by
          rw [hskips, Bool.eq_false_iff.2 happ, Bool.not_false]
        have hentries : applicationEntries ((name, hv) :: headers) =
            applicationEntries headers := by
          simp [applicationEntries, happ]
        rw [hentries]
        simp only [headersToMetadataLoop, hskip, if_true]
        exact ih total out

/-- **Receiving into an empty map** inserts all application entries, or reports the limit. -/
theorem nghttp2HeadersToMetadata_eq (headers : HeaderMap) (maxSize : Nat) :
    (totalSize (applicationEntries headers) ≤ maxSize →
        nghttp2HeadersToMetadata headers [] maxSize =
          (Status.okStatus, Multimap.emplaceAll (applicationEntries headers) [])) ∧
      (maxSize < totalSize (applicationEntries headers) →
        (nghttp2HeadersToMetadata headers [] maxSize).1 = metadataTooLarge) := by
  obtain ⟨hfits, hover⟩ := headersToMetadataLoop_eq maxSize headers 0 []
  rw [Nat.zero_add] at hfits hover
  exact ⟨hfits, hover (Nat.zero_le _)⟩

/-! ## Sending -/

/-- **Sending** writes one header for each entry under a settable key. -/
theorem metadataToNghttp2Headers_eq (m : MetadataMap) (out : HeaderMap) :
    metadataToNghttp2Headers m out =
      Multimap.emplaceAll ((m.filter fun e => isSettable e.1).map entryHeader) out := by
  -- on the entries, in the order of the map
  induction m generalizing out with
  | nil => rfl
  | cons e m ih =>
      obtain ⟨key, value⟩ := e
      have hskips : (!isValidKey key || isReservedKey key) = !isSettable key := by
        simp [isSettable, Bool.not_and]
      rw [metadataToNghttp2Headers, hskips]
      cases hset : isSettable key with
      | true => simp [hset, ih, entryHeader]
      | false => simp [hset, ih]

/-- The reserved names that receiving skips are reserved for the application too. -/
theorem isReservedKey_of_isGrpcInternal {k : Bytes} (h : isGrpcInternal k = true) :
    isReservedKey k = true := by
  have hall : kSkip.all isReservedKey = true := by decide
  exact List.all_eq_true.1 hall k (by simpa [isGrpcInternal] using h)

/-- A settable key is not skipped on the way in. -/
theorem isApplicationHeader_of_isSettable {k : Bytes} (h : isSettable k = true) :
    isApplicationHeader k = true := by
  simp only [isSettable, Bool.and_eq_true, Bool.not_eq_true'] at h
  obtain ⟨hvalid, hfree⟩ := h
  have hpseudo : isHttp2Pseudo k = false := by
    simp only [isReservedKey, Bool.or_eq_false_iff] at hfree
    exact hfree.2
  have hinternal : isGrpcInternal k = false := by
    by_contra hin
    rw [isReservedKey_of_isGrpcInternal (by simpa using hin)] at hfree
    cases hfree
  simp [isApplicationHeader, hvalid, hpseudo, hinternal]

/-- An entry is read back from its header. -/
theorem headerEntry_entryHeader (e : Bytes × Bytes) : headerEntry (entryHeader e) = e := by
  obtain ⟨key, value⟩ := e
  by_cases hbin : isBinaryKey key = true
  · simp [headerEntry, entryHeader, plain, hbin, decodeBase64_encodeBase64]
  · simp [headerEntry, entryHeader, plain, hbin]

/-- The headers of sorted entries are sorted. -/
theorem metadataToNghttp2Headers_sorted {m : MetadataMap} (hsorted : Multimap.Sorted m)
    (hset : ∀ e ∈ m, isSettable e.1 = true) :
    metadataToNghttp2Headers m [] = m.map entryHeader := by
  have hfilter : (m.filter fun e => isSettable e.1) = m := List.filter_eq_self.2 hset
  have hs : Multimap.Sorted (m.map entryHeader) := List.pairwise_map.2 hsorted
  rw [metadataToNghttp2Headers_eq, hfilter]
  exact Multimap.emplaceAll_of_sorted hs

/-- The application entries of the headers of settable entries are these entries. -/
theorem applicationEntries_map_entryHeader {m : MetadataMap}
    (hset : ∀ e ∈ m, isSettable e.1 = true) : applicationEntries (m.map entryHeader) = m := by
  have hfilter : ((m.map entryHeader).filter fun h => isApplicationHeader h.1) =
      m.map entryHeader := by
    apply List.filter_eq_self.2
    intro h hh
    obtain ⟨e, he, rfl⟩ := List.mem_map.1 hh
    exact isApplicationHeader_of_isSettable (hset e he)
  rw [applicationEntries, hfilter, List.map_map]
  calc m.map (headerEntry ∘ entryHeader) = m.map id := by
        apply List.map_congr_left
        intro e _
        exact headerEntry_entryHeader e
    _ = m := List.map_id m

/-- **Sorted entries under settable keys arrive as they were sent**, within the limit. -/
theorem transfer_eq {m : MetadataMap} (hsorted : Multimap.Sorted m)
    (hset : ∀ e ∈ m, isSettable e.1 = true) (maxSize : Nat) :
    (totalSize m ≤ maxSize →
        nghttp2HeadersToMetadata (metadataToNghttp2Headers m []) [] maxSize =
          (Status.okStatus, m)) ∧
      (maxSize < totalSize m →
        (nghttp2HeadersToMetadata (metadataToNghttp2Headers m []) [] maxSize).1 =
          metadataTooLarge) := by
  have hback := nghttp2HeadersToMetadata_eq (m.map entryHeader) maxSize
  rw [applicationEntries_map_entryHeader hset] at hback
  rw [metadataToNghttp2Headers_sorted hsorted hset]
  refine ⟨fun hle => ?_, hback.2⟩
  rw [hback.1 hle, Multimap.emplaceAll_of_sorted (m := []) hsorted, List.nil_append]

/-! ## Metadata of the application -/

/-- The map after a number of calls of `ValidateAndAdd`; `none` if one of them throws. -/
def addEntries (entries : List (Bytes × Bytes)) : Option MetadataMap :=
  entries.foldlM (fun m e => validateAndAdd m e.1 e.2) []

/-- Maps built by `ValidateAndAdd` are sorted and have settable keys only. -/
theorem addEntries_settable {entries : List (Bytes × Bytes)} {m : MetadataMap}
    (h : addEntries entries = some m) :
    Multimap.Sorted m ∧ ∀ e ∈ m, isSettable e.1 = true := by
  have hfold : ∀ (es : List (Bytes × Bytes)) (m₀ : MetadataMap), Multimap.Sorted m₀ →
      (∀ e ∈ m₀, isSettable e.1 = true) →
      es.foldlM (fun m e => validateAndAdd m e.1 e.2) m₀ = some m →
      Multimap.Sorted m ∧ ∀ e ∈ m, isSettable e.1 = true := by
    intro es
    -- on the calls: none of them throws
    induction es with
    | nil =>
        intro m₀ hsorted hset h
        rw [List.foldlM_nil] at h
        cases h
        exact ⟨hsorted, hset⟩
    | cons e es ih =>
        intro m₀ hsorted hset h
        rw [List.foldlM_cons] at h
        obtain ⟨m₁, hadd, hrest⟩ := Option.bind_eq_some_iff.1 h
        simp only [validateAndAdd, Option.ite_none_left_eq_some, Option.some.injEq] at hadd
        obtain ⟨hvalid, hfree, rfl⟩ := hadd
        refine ih _ (Multimap.sorted_emplace hsorted _ _) ?_ hrest
        intro x hx
        rcases Multimap.mem_emplace.1 hx with rfl | hx
        · simp only [isSettable]
          simpa using And.intro hvalid hfree
        · exact hset x hx
  exact hfold entries [] Multimap.sorted_nil (by simp) h

/-- **Metadata round trip with an exact size bound.** A map built by `ValidateAndAdd` is reproduced,
the order of values under one key included, if and only if its total size is within the limit;
otherwise the limit is reported. -/
theorem metadata_round_trip {entries : List (Bytes × Bytes)} {m : MetadataMap}
    (h : addEntries entries = some m) (maxSize : Nat) :
    ((nghttp2HeadersToMetadata (metadataToNghttp2Headers m []) [] maxSize).1.isOk = true ∧
        (nghttp2HeadersToMetadata (metadataToNghttp2Headers m []) [] maxSize).2 = m ↔
      totalSize m ≤ maxSize) ∧
    (maxSize < totalSize m →
      (nghttp2HeadersToMetadata (metadataToNghttp2Headers m []) [] maxSize).1.code =
        .resourceExhausted) := by
  obtain ⟨hsorted, hset⟩ := addEntries_settable h
  obtain ⟨hfits, hover⟩ := transfer_eq hsorted hset maxSize
  refine ⟨⟨fun hok => ?_, fun hle => ?_⟩, fun hlt => ?_⟩
  · by_contra hle
    have hlimit := hok.1
    rw [hover (by omega)] at hlimit
    cases hlimit
  · rw [hfits hle]
    exact ⟨Status.isOk_okStatus, rfl⟩
  · rw [hover hlt]
    rfl

/-- Two values of one binary key behind a plain key that was added later, at the exact limit. -/
theorem metadata_round_trip_example :
    let entries : List (Bytes × Bytes) :=
      [(text "trace-bin", [0, 255]), (text "trace-bin", []), (text "a", text "x y")]
    let m : MetadataMap :=
      [(text "a", text "x y"), (text "trace-bin", [0, 255]), (text "trace-bin", [])]
    ((nghttp2HeadersToMetadata (metadataToNghttp2Headers m []) [] 24).1.isOk = true ∧
        (nghttp2HeadersToMetadata (metadataToNghttp2Headers m []) [] 24).2 = m ↔
      totalSize m ≤ 24) ∧
    (24 < totalSize m →
      (nghttp2HeadersToMetadata (metadataToNghttp2Headers m []) [] 24).1.code =
        .resourceExhausted) ∧ addEntries entries = some m := by
  have hadd : addEntries
      [(text "trace-bin", [0, 255]), (text "trace-bin", []), (text "a", text "x y")] =
      some [(text "a", text "x y"), (text "trace-bin", [0, 255]), (text "trace-bin", [])] := by
    decide
  have h := metadata_round_trip hadd 24
  exact ⟨h.1, h.2, hadd⟩

/-! ## Metadata from a peer -/

/-- Every header with a valid name and the prefix `grpc-` is one of the eight that receiving
skips. -/
def OnlyListedGrpcHeaders (headers : HeaderMap) : Prop :=
  ∀ h ∈ headers, isValidKey h.1 = true → (text "grpc-").isPrefixOf h.1 = true →
    isGrpcInternal h.1 = true

instance (headers : HeaderMap) : Decidable (OnlyListedGrpcHeaders headers) :=
  inferInstanceAs (Decidable (∀ h ∈ headers, _ → _ → _))

/-- A header that is not skipped has a reserved name only if the name starts with `grpc-`. -/
theorem isReservedKey_of_isApplicationHeader {k : Bytes} (h : isApplicationHeader k = true) :
    isValidKey k = true ∧ isGrpcInternal k = false ∧
      isReservedKey k = (text "grpc-").isPrefixOf k := by
  simp only [isApplicationHeader, Bool.not_eq_true', Bool.or_eq_false_iff, Bool.not_eq_false']
    at h
  obtain ⟨⟨hpseudo, hinternal⟩, hvalid⟩ := h
  have hct : (k == text "content-type") = false := by
    by_contra hk
    rw [Bool.not_eq_false, beq_iff_eq] at hk
    subst hk
    exact absurd hinternal (by decide)
  have hte : (k == text "te") = false := by
    by_contra hk
    rw [Bool.not_eq_false, beq_iff_eq] at hk
    subst hk
    exact absurd hinternal (by decide)
  have hcolon : (text ":").isPrefixOf k = false := hpseudo
  refine ⟨hvalid, hinternal, ?_⟩
  simp only [isReservedKey, hct, hte, hcolon, Bool.or_false]

/-- The application entries of a block are settable exactly if it has no unlisted `grpc-` header. -/
theorem settable_entries_iff (headers : HeaderMap) :
    (∀ e ∈ applicationEntries headers, isReservedKey e.1 = false) ↔
      OnlyListedGrpcHeaders headers := by
  constructor
  · intro hfree h hmem hvalid hprefix
    by_contra hinternal
    -- a name that starts with `g` is no pseudo header
    have hpseudo : isHttp2Pseudo h.1 = false := by
      cases hname : h.1 with
      | nil => rfl
      | cons c cs =>
          rw [hname] at hprefix
          have hc : c = 103 := by
            have hhead := List.isPrefixOf_iff_prefix.1 hprefix
            exact (List.cons_prefix_cons.1 hhead).1.symm
          subst hc
          rfl
    have happ : isApplicationHeader h.1 = true := by
      simp [isApplicationHeader, hpseudo, hvalid, Bool.eq_false_iff.2 hinternal]
    -- not skipped, so it would be an entry under a reserved key
    have hentry : headerEntry h ∈ applicationEntries headers :=
      List.mem_map_of_mem (List.mem_filter.2 ⟨hmem, happ⟩)
    have hreserved := hfree _ hentry
    rw [show (headerEntry h).1 = h.1 from rfl, (isReservedKey_of_isApplicationHeader happ).2.2,
      hprefix] at hreserved
    cases hreserved
  · intro hlisted e he
    obtain ⟨h, hh, rfl⟩ := List.mem_map.1 he
    obtain ⟨hmem, happ⟩ := List.mem_filter.1 hh
    obtain ⟨hvalid, hinternal, hreserved⟩ := isReservedKey_of_isApplicationHeader happ
    rw [show (headerEntry h).1 = h.1 from rfl, hreserved]
    by_contra hprefix
    rw [hlisted h hmem hvalid (by simpa using hprefix)] at hinternal
    cases hinternal

/-- Received metadata shows no reserved key, and arrives unchanged when it is forwarded. -/
def Forwards (maxSize : Nat) (m : MetadataMap) : Prop :=
  (∀ e ∈ m, isReservedKey e.1 = false) ∧
    nghttp2HeadersToMetadata (metadataToNghttp2Headers m []) [] maxSize = (Status.okStatus, m)

/-- **Received metadata is free of reserved keys and forwarded without loss exactly if the block has
no `grpc-` header outside the list** that receiving skips. -/
theorem forwards_iff {headers : HeaderMap} {maxSize : Nat} {m : MetadataMap}
    (h : nghttp2HeadersToMetadata headers [] maxSize = (Status.okStatus, m)) :
    Forwards maxSize m ↔ OnlyListedGrpcHeaders headers := by
  obtain ⟨hfits, hover⟩ := nghttp2HeadersToMetadata_eq headers maxSize
  -- the entries fit: over the limit there is a status instead of metadata
  have hle : totalSize (applicationEntries headers) ≤ maxSize := by
    by_contra hlt
    have hlimit := hover (by omega)
    rw [h] at hlimit
    cases hlimit
  have hm : m = Multimap.emplaceAll (applicationEntries headers) [] := by
    rw [hfits hle] at h
    exact (Prod.mk.inj h).2.symm
  have hmem : ∀ e, e ∈ m ↔ e ∈ applicationEntries headers := by
    intro e
    rw [hm, Multimap.mem_emplaceAll]
    simp
  rw [← settable_entries_iff]
  constructor
  · intro hforward e he
    exact hforward.1 e ((hmem e).2 he)
  · intro hfree
    have hfree' : ∀ e ∈ m, isReservedKey e.1 = false := fun e he => hfree e ((hmem e).1 he)
    refine ⟨hfree', ?_⟩
    -- a key that is not reserved can be set again, since it was read from a valid header
    have hset : ∀ e ∈ m, isSettable e.1 = true := by
      intro e he
      obtain ⟨hd, hh, rfl⟩ := List.mem_map.1 ((hmem e).1 he)
      have hvalid : isValidKey (headerEntry hd).1 = true :=
        (isReservedKey_of_isApplicationHeader (List.mem_filter.1 hh).2).1
      simp only [isSettable]
      rw [hfree' _ he, hvalid]
      rfl
    have hsorted : Multimap.Sorted m := hm ▸ Multimap.sorted_emplaceAll Multimap.sorted_nil _
    have hsize : totalSize m = totalSize (applicationEntries headers) := by
      rw [hm]
      exact totalSize_perm (by simpa using Multimap.emplaceAll_perm (applicationEntries headers) [])
    exact (transfer_eq hsorted hset maxSize).1 (by omega)

/-- A block with a binary value in a form that the encoder would not emit. -/
def paddedHeaders : HeaderMap :=
  [(text ":status", plain (text "200")), (text "content-type", plain (text "application/grpc")),
    (text "grpc-encoding", plain (text "identity")), (text "id-bin", plain (text "A-A=="))]

/-- A block with a reserved header that is not in the list. -/
def previousAttempts : HeaderMap :=
  [(text "grpc-previous-rpc-attempts", plain (text "1")), (text "x", plain (text "y"))]

/-- The padded value is forwarded as the byte it stands for. -/
theorem forwards_example :
    Forwards kMaxMetadataSize [(text "id-bin", [0])] ∧ OnlyListedGrpcHeaders paddedHeaders := by
  have hread : nghttp2HeadersToMetadata paddedHeaders [] kMaxMetadataSize =
      (Status.okStatus, [(text "id-bin", [0])]) := by decide
  exact ⟨(forwards_iff hread).2 (by decide), by decide⟩

/-- **A reserved header is exposed to the application**, and lost when it is forwarded. -/
theorem not_forwards :
    ¬ ∀ (headers : HeaderMap) (maxSize : Nat) (m : MetadataMap),
      nghttp2HeadersToMetadata headers [] maxSize = (Status.okStatus, m) → Forwards maxSize m := by
  intro h
  have hforward := h previousAttempts kMaxMetadataSize
    [(text "grpc-previous-rpc-attempts", text "1"), (text "x", text "y")] (by decide)
  exact absurd hforward.1 (by decide)

end Rpcpio.Protocol
