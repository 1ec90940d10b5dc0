import Rpcpio.Library.Numeral
import Rpcpio.Protocol.MetadataCodec

/-!
# The two readers of trailers

`ExtractTrailerStatus` is there twice, for header blocks and for metadata. Both parse the value of
`grpc-status` with `parseGrpcStatus`, which is exact on every value but the empty one
(`statusExact_iff`): it takes that for zero. The reader of metadata cannot see an empty value and
reports it as missing, the reader of header blocks returns `OK`, so the two agree as long as the
value is not empty (`readersAgree_iff`).
-/

set_option autoImplicit false

namespace Rpcpio.Protocol

open Library

/-! ## The value of `grpc-status` -/

/-- A value of `grpc-status` that stands for the code `n`. -/
def IsStatusNumeral (value : Bytes) (n : Nat) : Prop :=
  value ≠ [] ∧ (∀ c ∈ value, IsDigit c) ∧ numeral value = n ∧ n ≤ 16

/-- The value is read as the code it stands for, and as `UNKNOWN` if it stands for none. -/
structure StatusExact (value : Bytes) : Prop where
  code : ∀ n, IsStatusNumeral value n → (parseGrpcStatus value).toNat = n
  malformed : (¬ ∃ n, IsStatusNumeral value n) → parseGrpcStatus value = .unknown

theorem toNat_fromInt {n : Nat} (h : n ≤ 16) : (StatusCode.fromInt n).toNat = n := by
  have hall : ∀ n : Fin 17, (StatusCode.fromInt n).toNat = n := by decide
  exact hall ⟨n, by omega⟩

/-- One digit of the loop. -/
theorem parseGrpcStatusLoop_cons (code : Nat) (c : UInt8) (s : Bytes) :
    parseGrpcStatusLoop code (c :: s) =
      if IsDigit c then
        if 16 < code * 10 + digitValue c then none
        else parseGrpcStatusLoop (code * 10 + digitValue c) s
      else none := by
  rw [parseGrpcStatusLoop]
  by_cases hc : IsDigit c
  · have hgood : (c < 48 || 57 < c) = false := by simpa [IsDigit] using hc
    rw [if_pos hc, hgood]
    rfl
  · have hbad : (c < 48 || 57 < c) = true := by simpa [not_isDigit_iff] using hc
    rw [if_neg hc, hbad]
    rfl

/-- The loop returns early at the first digit that takes the value over 16; the value never comes
back from there. -/
theorem parseGrpcStatusLoop_eq_some_iff {code n : Nat} {s : Bytes} (hcode : code ≤ 16) :
    parseGrpcStatusLoop code s = some n ↔
      (∀ c ∈ s, IsDigit c) ∧ numeralFrom code s = n ∧ n ≤ 16 := by
  induction s generalizing code with
  | nil =>
      simp only [parseGrpcStatusLoop, Option.some.injEq, List.not_mem_nil, false_imp_iff,
        implies_true, true_and, numeralFrom_nil]
      exact ⟨fun h => ⟨h, h ▸ hcode⟩, fun h => h.1⟩
  | cons c s ih =>
      rw [List.forall_mem_cons, numeralFrom_cons, parseGrpcStatusLoop_cons]
      by_cases hc : IsDigit c
      · rw [if_pos hc]
        by_cases hlarge : 16 < code * 10 + digitValue c
        · -- the loop has returned, and the value of the whole string is larger still
          have hle := le_numeralFrom (code * 10 + digitValue c) s
          rw [if_pos hlarge]
          constructor
          · intro h
            cases h
          · rintro ⟨_, rfl, hn⟩
            omega
        · rw [if_neg hlarge, and_iff_right hc, ih (Nat.not_lt.1 hlarge)]
      · rw [if_neg hc]
        constructor
        · intro h
          cases h
        · intro h
          exact absurd h.1.1 hc

/-- A value behind a minus sign is malformed, and read as `UNKNOWN`. -/
theorem parseGrpcStatus_minus (value : Bytes) : parseGrpcStatus (45 :: value) = .unknown := by
  have hsign : (text "-").isPrefixOf (45 :: value) = true := by
    rw [show text "-" = [45] by decide]
    rfl
  simp only [parseGrpcStatus, hsign, if_true]
  split <;> rfl

/-- Without a minus sign the loop reads the whole value. -/
theorem parseGrpcStatus_of_ne_minus {c : UInt8} (hc : c ≠ 45) (s : Bytes) :
    parseGrpcStatus (c :: s) =
      match parseGrpcStatusLoop 0 (c :: s) with
      | none => .unknown
      | some code => StatusCode.fromInt code := by
  have hsign : (text "-").isPrefixOf (c :: s) = false := by
    have hne : (45 == c) = false := beq_eq_false_iff_ne.2 hc.symm
    rw [show text "-" = [45] by decide, List.isPrefixOf_cons_cons, hne]
    rfl
  rw [parseGrpcStatus, hsign]
  rfl

theorem statusExact_of_ne_nil {value : Bytes} (hne : value ≠ []) : StatusExact value := by
  obtain ⟨c, s, rfl⟩ := List.exists_cons_of_ne_nil hne
  -- a minus sign is cut off before the loop, and makes the value malformed
  by_cases hc : c = 45
  · subst hc
    constructor
    · intro n hn
      exact absurd (hn.2.1 45 List.mem_cons_self) (by decide)
    · intro _
      exact parseGrpcStatus_minus s
  · constructor
    · intro n hn
      obtain ⟨_, hdigits, hvalue, hle⟩ := hn
      have hloop := (parseGrpcStatusLoop_eq_some_iff (Nat.zero_le 16)).2 ⟨hdigits, hvalue, hle⟩
      rw [parseGrpcStatus_of_ne_minus hc, hloop]
      exact toNat_fromInt hle
    · intro hno
      rw [parseGrpcStatus_of_ne_minus hc]
      cases hloop : parseGrpcStatusLoop 0 (c :: s) with
      | none => rfl
      | some n =>
          have hn := (parseGrpcStatusLoop_eq_some_iff (Nat.zero_le 16)).1 hloop
          exact absurd ⟨n, hne, hn⟩ hno

/-- **Only the empty value is misread.** -/
theorem statusExact_iff (value : Bytes) : StatusExact value ↔ value ≠ [] := by
  constructor
  · rintro h rfl
    have hunknown := h.malformed fun ⟨_, hn⟩ => hn.1 rfl
    cases hunknown
  · exact statusExact_of_ne_nil

/-! ## The reader of metadata -/

/-- `ExtractTrailerStatus` on metadata; `find` is empty for a missing key. -/
def extractTrailerStatusMetadata (trailers : MetadataMap) : Status :=
  let find (key : Bytes) : Bytes := (Multimap.find key trailers).getD []
  let statusStr := find (text "grpc-status")
  if statusStr.isEmpty then missingGrpcStatus
  else
    { code := parseGrpcStatus statusStr
      message := parseGrpcMessage (find (text "grpc-message"))
      details := parseGrpcStatusDetails (find (text "grpc-status-details-bin")) }

/-- The keys of a status. -/
def statusKeys : List Bytes :=
  [text "grpc-status", text "grpc-message", text "grpc-status-details-bin"]

/-- The same trailers as a header block and as metadata, with at most one entry for each key of the
status. -/
structure SameTrailers (h : HeaderMap) (m : MetadataMap) : Prop where
  entries : m.Perm (h.map fun e => (e.1, e.2.value))
  single : ∀ k ∈ statusKeys, Multimap.count k h ≤ 1

namespace SameTrailers

variable {h : HeaderMap} {m : MetadataMap}

theorem find (hs : SameTrailers h m) {k : Bytes} (hk : k ∈ statusKeys) :
    Multimap.find k m = (Multimap.find k h).map HeaderValue.value :=
  Multimap.find_of_perm_map hs.entries (hs.single k hk)

theorem message (hs : SameTrailers h m) :
    parseGrpcMessage ((Multimap.find (text "grpc-message") m).getD []) =
      match Multimap.find (text "grpc-message") h with
      | none => []
      | some v => parseGrpcMessage v.value := by
  rw [hs.find (by decide)]
  cases Multimap.find (text "grpc-message") h with
  | none => rfl
  | some v => rfl

theorem details (hs : SameTrailers h m) :
    parseGrpcStatusDetails ((Multimap.find (text "grpc-status-details-bin") m).getD []) =
      match Multimap.find (text "grpc-status-details-bin") h with
      | none => []
      | some v => parseGrpcStatusDetails v.value := by
  rw [hs.find (by decide)]
  cases Multimap.find (text "grpc-status-details-bin") h with
  | none => rfl
  | some v => rfl

/-- The status is there with an empty value, or both readers return the same. -/
theorem readers (hs : SameTrailers h m) :
    extractTrailerStatus h = extractTrailerStatusMetadata m ↔
      ∀ v, Multimap.find (text "grpc-status") h = some v → v.value ≠ [] := by
  have hfind := hs.find (k := text "grpc-status") (by decide)
  simp only [extractTrailerStatus, extractTrailerStatusMetadata, hs.message, hs.details, hfind]
  cases Multimap.find (text "grpc-status") h with
  | none => simp
  | some v =>
      simp only [Option.map_some, Option.getD_some, Option.some.injEq, forall_eq']
      by_cases hv : v.value = []
      · -- `OK` on one side, the missing status on the other
        rw [hv]
        constructor
        · intro heq
          have hcode := congrArg Status.code heq
          cases hcode
        · intro hne
          exact absurd rfl hne
      · rw [if_neg (by rwa [List.isEmpty_iff])]
        exact ⟨fun _ => hv, fun _ => rfl⟩

end SameTrailers

/-- No entry of `grpc-status` is empty. -/
def StatusNotEmpty (h : HeaderMap) : Prop := ∀ e ∈ h, e.1 = text "grpc-status" → e.2.value ≠ []

instance (h : HeaderMap) : Decidable (StatusNotEmpty h) :=
  inferInstanceAs (Decidable (∀ e ∈ h, _))

theorem readersAgree_iff {h : HeaderMap} {m : MetadataMap} (hs : SameTrailers h m) :
    extractTrailerStatus h = extractTrailerStatusMetadata m ↔ StatusNotEmpty h := by
  rw [hs.readers]
  constructor
  · rintro hall ⟨k, v⟩ he rfl
    exact hall v ((Multimap.find_eq_some_iff (hs.single _ (by decide))).2 he)
  · intro hall v hv
    exact hall _ ((Multimap.find_eq_some_iff (hs.single _ (by decide))).1 hv) rfl

/-- **Only a well-formed zero means `OK`, unless it is empty**: a value is read exactly, and the two
readers agree, if and only if the value and the `grpc-status` of the trailers are not empty. -/
theorem status_read_iff {value : Bytes} {h : HeaderMap} {m : MetadataMap} (hs : SameTrailers h m) :
    StatusExact value ∧ extractTrailerStatus h = extractTrailerStatusMetadata m ↔
      value ≠ [] ∧ StatusNotEmpty h := by
  rw [statusExact_iff, readersAgree_iff hs]

theorem status_read_iff_zeros :
    StatusExact (text "0007") ∧
        extractTrailerStatus [(text "grpc-status", plain (text "13"))] =
          extractTrailerStatusMetadata [(text "grpc-status", text "13")] ↔
      text "0007" ≠ [] ∧ StatusNotEmpty [(text "grpc-status", plain (text "13"))] :=
  status_read_iff ⟨List.Perm.refl _, by decide⟩

/-- An empty value is read as `OK` from a header block, and as missing from metadata. -/
theorem status_misread_of_empty :
    parseGrpcStatus [] = .ok ∧
      (extractTrailerStatus [(text "grpc-status", plain [])]).code = .ok ∧
      extractTrailerStatusMetadata [(text "grpc-status", [])] = missingGrpcStatus ∧
      ¬ ((∀ value, StatusExact value) ∧ ∀ h m, SameTrailers h m →
        extractTrailerStatus h = extractTrailerStatusMetadata m) := by
  refine ⟨rfl, rfl, by decide, ?_⟩
  intro hall
  exact (statusExact_iff []).1 (hall.1 []) rfl

end Rpcpio.Protocol
