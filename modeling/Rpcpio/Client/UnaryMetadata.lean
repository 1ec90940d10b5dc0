import Rpcpio.Client.CallState
import Rpcpio.Protocol.MetadataTransfer

/-!
# The metadata of a unary result

`Attach` and the trailers closure call `Nghttp2HeadersToMetadata` and drop the status it returns.
The map of a block over `kMaxMetadataSize` then holds what was inserted before the limit, and the
call goes on to the status the peer sent. A result tells the truth about its metadata exactly if
every block was within the limit, or what ended the call reported an exhausted resource anyway
(`reportsMetadata_iff`).
-/

set_option autoImplicit false

namespace Rpcpio.Client

open Rpcpio.Library Rpcpio.Protocol

/-- The application entries of the block are within `kMaxMetadataSize`. -/
def FitsLimit (h : HeaderMap) : Prop := totalSize (applicationEntries h) ≤ kMaxMetadataSize

instance (h : HeaderMap) : Decidable (FitsLimit h) :=
  inferInstanceAs (Decidable (_ ≤ _))

/-- What a result has to say about the blocks of its call: on success every application entry is in
its map, and a block over the limit is reported. -/
structure ReportsMetadata (initial trailing : List HeaderMap) (r : UnaryResultRaw) : Prop where
  initialComplete : r.status.isOk = true →
    ∀ h ∈ initial, (applicationEntries h).Subperm r.initialMetadata
  trailingComplete : r.status.isOk = true →
    ∀ h ∈ trailing, (applicationEntries h).Subperm r.trailingMetadata
  exhausted : ∀ h ∈ initial ++ trailing, ¬ FitsLimit h → r.status.code = .resourceExhausted

/-- Whether `Attach` knows the encoding of the response. -/
def supportsEncoding (z : Zlib) (header : HeaderMap) : Bool :=
  match Multimap.find (text "grpc-encoding") header with
  | none => true
  | some v => v.value == text "identity" || (parseEncoding z v.value).isSome

/-- A response head that carries the status of the call. -/
def isTrailersOnly (z : Zlib) (head : ResponseHead) : Bool :=
  isGrpc head.header && decide (head.statusCode = 200) && supportsEncoding z head.header &&
    Multimap.contains (text "grpc-status") head.header

/-- The map after a block, with the status of the conversion dropped. -/
def collect (m : MetadataMap) (h : HeaderMap) : MetadataMap :=
  (nghttp2HeadersToMetadata h m kMaxMetadataSize).2

/-- A block within the limit is collected whole. -/
theorem subperm_collect {h : HeaderMap} (hfits : FitsLimit h) :
    (applicationEntries h).Subperm (collect [] h) := by
  have heq := (nghttp2HeadersToMetadata_eq h kMaxMetadataSize).1 hfits
  have hperm := Multimap.emplaceAll_perm (applicationEntries h) []
  rw [List.append_nil] at hperm
  simp only [collect, heq]
  exact hperm.symm.subperm

namespace UnaryCompletion

/-- The response heads among the events. -/
def headBlocks (es : List UnaryEvent) : List HeaderMap :=
  es.filterMap fun
    | .attach head => some head.header
    | _ => none

/-- The trailing blocks among the events; the block of a trailers-only response is both. -/
def trailerBlocks (z : Zlib) (es : List UnaryEvent) : List HeaderMap :=
  es.filterMap fun
    | .attach head => if isTrailersOnly z head then some head.header else none
    | .trailers h => some h
    | _ => none

/-- An event that itself reports an exhausted resource: the peer's status, a message over its limit,
or the error code of a reset stream. -/
def Exhausts (z : Zlib) (u : UnaryCompletion) : UnaryEvent → Prop
  | .attach head =>
      isTrailersOnly z head = true ∧ (extractTrailerStatus head.header).code = .resourceExhausted
  | .data chunk => (u.call.feedChunk chunk).limitExceeded = true
  | .trailers h => (extractTrailerStatus h).code = .resourceExhausted
  | .close errorCode => (closeStatus errorCode).code = .resourceExhausted
  | .fail s => s.code = .resourceExhausted
  | _ => False

/-! ## What the state collects -/

/-- An event after which the call is still open changes the result at most by its response head. -/
theorem step_result {z : Zlib} {u u' : UnaryCompletion} {e : UnaryEvent}
    (h : step z u e = some u') (hopen : u'.call.completed = false) :
    u'.call.result = { u.call.result with
      initialMetadata := (headBlocks [e]).foldl collect u.call.result.initialMetadata } := by
  have hclosed : ∀ {c : ClientCallState} {r : UnaryResultRaw},
      (c.complete r).1.completed = false → False := by
    intro c r hc
    rw [(complete_flags c r).1] at hc
    cases hc
  -- the events that end the call leave it completed
  cases e with
  | armTimer =>
      cases h
      rfl
  | attach head =>
      cases h
      simp only [after, ClientCallState.attach] at hopen ⊢
      cases hr : u.call.headResult z head with
      | error r =>
          simp only [hr] at hopen
          exact (hclosed hopen).elim
      | ok enc => rfl
  | data chunk =>
      cases h
      simp only [after, ClientCallState.onData] at hopen ⊢
      split
      · rfl
      · rename_i hc
        rw [if_neg hc] at hopen
        cases hr : u.call.dataResult chunk with
        | none => rfl
        | some r =>
            rw [hr] at hopen
            exact (hclosed hopen).elim
  | trailers hd =>
      cases h
      simp only [after, ClientCallState.onTrailers] at hopen ⊢
      split
      · rfl
      · rename_i hc
        rw [if_neg hc] at hopen
        obtain ⟨r, hr⟩ := trailersResult_isSome (z := z) (c := u.call) (by simpa using hc) hd
        rw [hr] at hopen
        exact (hclosed hopen).elim
  | close errorCode =>
      cases h
      simp only [after, ClientCallState.onStreamClose] at hopen ⊢
      cases hr : u.call.closeResult errorCode with
      | none => rfl
      | some r =>
          rw [hr] at hopen
          exact (hclosed hopen).elim
  | expire =>
      obtain ⟨t, _, rfl⟩ := Option.map_eq_some_iff.1 h
      rfl
  | timerHandler =>
      obtain ⟨t, _, rfl⟩ := Option.map_eq_some_iff.1 h
      rfl
  | deadline =>
      cases h
      exact (hclosed hopen).elim
  | cancel =>
      cases h
      exact (hclosed hopen).elim
  | fail s =>
      cases h
      exact (hclosed hopen).elim
  | runIoc i =>
      obtain ⟨r, _, rfl⟩ := Option.map_eq_some_iff.1 h
      rfl

/-- **While a call is open, its result holds what the response heads gave.** -/
theorem run_result {z : Zlib} :
    ∀ (es : List UnaryEvent) (u u' : UnaryCompletion), (machine z).run u es = some u' →
      u'.call.completed = false →
        u'.call.result = { u.call.result with
          initialMetadata := (headBlocks es).foldl collect u.call.result.initialMetadata }
  | [], u, u', h, _ => by
      cases h
      rfl
  -- a call that is open at the end was open after every event
  | e :: es, u, u', h, hopen => by
      obtain ⟨v, hv, hrun⟩ := Machine.run_cons_some.1 h
      have hstep : step z u e = some v := hv
      have hvopen : v.call.completed = false := by
        by_contra hc
        have hclosed := Machine.run_invariant (M := machine z)
          (I := fun u => u.call.completed = true)
          (fun _ _ _ hs hstep => Gate.move_closed (step_gate hstep) hs) es v u' (by simpa using hc)
          hrun
        rw [hclosed] at hopen
        cases hopen
      have hblocks : headBlocks (e :: es) = headBlocks [e] ++ headBlocks es :=
        List.filterMap_append (l := [e])
      rw [run_result es v u' hrun hopen, step_result hstep hvopen, hblocks, List.foldl_append]

/-! ## What the result says -/

/-- A response head that ends the call carries its status, or is rejected with an error of its
own. -/
theorem headResult_error {z : Zlib} {c : ClientCallState} {head : ResponseHead}
    {r : UnaryResultRaw} (h : c.headResult z head = .error r) :
    (isTrailersOnly z head = true ∧
        r = { c.result with
          status := extractTrailerStatus head.header
          initialMetadata := collect c.result.initialMetadata head.header
          trailingMetadata := collect c.result.trailingMetadata head.header }) ∨
      (isTrailersOnly z head = false ∧ r.status.isOk = false ∧
        r.status.code ≠ .resourceExhausted) := by
  have hhttp : (Status.fromHttpStatus head.statusCode).code ≠ .resourceExhausted := by
    simp only [Status.fromHttpStatus]
    split_ifs <;> exact fun h => by cases h
  simp only [ClientCallState.headResult] at h
  -- the tests of `Attach` in their order: content type, HTTP status, encoding, `grpc-status`
  by_cases hg : isGrpc head.header = true
  · by_cases hs : head.statusCode = 200
    · simp only [hg, Bool.not_true, Bool.false_eq_true, if_false, hs, ne_eq, not_true_eq_false] at h
      split at h
      · -- the encoding is not known
        rename_i r' henc
        cases h
        right
        split at henc
        · cases henc
        · rename_i v hv
          split at henc
          · cases henc
          · rename_i hid
            split at henc
            · rename_i hparse
              cases henc
              refine ⟨?_, rfl, fun h => by cases h⟩
              simp [isTrailersOnly, supportsEncoding, hv, hid, hparse]
            · cases henc
      · rename_i enc henc
        have hsupported : supportsEncoding z head.header = true := by
          split at henc
          · rename_i hv
            simp only [supportsEncoding, hv]
          · rename_i v hv
            split at henc
            · rename_i hid
              simp [supportsEncoding, hv, hid]
            · split at henc
              · cases henc
              · rename_i hparse
                simp [supportsEncoding, hv, hparse]
        -- a known encoding, so only `grpc-status` in the head ends the call
        by_cases hgs : Multimap.contains (text "grpc-status") head.header = true
        · rw [if_pos hgs] at h
          cases h
          left
          refine ⟨?_, rfl⟩
          simp [isTrailersOnly, hg, hs, hsupported, hgs]
        · rw [if_neg hgs] at h
          cases h
    · simp only [hg, Bool.not_true, Bool.false_eq_true, if_false, hs, ne_eq, not_false_eq_true,
        if_true] at h
      cases h
      right
      refine ⟨?_, Status.fromHttpStatus_not_ok _, hhttp⟩
      simp [isTrailersOnly, hs]
  · simp only [Bool.not_eq_true] at hg
    simp only [hg, Bool.not_false, if_true] at h
    cases h
    right
    refine ⟨?_, Status.fromHttpStatus_not_ok _, hhttp⟩
    simp [isTrailersOnly, hg]

/-- The trailers closure takes the status of the trailers, or reports a failed decompression. -/
theorem trailersResult_some {z : Zlib} {c : ClientCallState} {trailers : HeaderMap}
    {r : UnaryResultRaw} (h : c.trailersResult z trailers = some r) :
    (r.status = extractTrailerStatus trailers ∧ r.initialMetadata = c.result.initialMetadata ∧
        r.trailingMetadata = collect c.result.trailingMetadata trailers) ∨
      ((extractTrailerStatus trailers).isOk = true ∧ r.status.code = .internal) := by
  simp only [ClientCallState.trailersResult] at h
  -- an error of the peer is passed on, a response is decompressed first
  split at h
  · cases h
  · split at h
    · cases h
      exact Or.inl ⟨rfl, rfl, rfl⟩
    · rename_i hok
      split at h
      · split at h
        · cases h
          exact Or.inr ⟨by simpa using hok, rfl⟩
        · cases h
          exact Or.inl ⟨rfl, rfl, rfl⟩
      · cases h
        exact Or.inl ⟨rfl, rfl, rfl⟩

/-- The result of a response head that ends the call. -/
theorem outcome_attach {z : Zlib} {u : UnaryCompletion} {head : ResponseHead} {r : UnaryResultRaw}
    (h : u.outcome z (.attach head) = some r) : u.call.headResult z head = .error r := by
  simp only [outcome] at h
  cases hres : u.call.headResult z head with
  | error r' =>
      rw [hres] at h
      cases h
      rfl
  | ok enc =>
      rw [hres] at h
      cases h

/-- The result of a data closure that ends the call. -/
theorem dataResult_some {c : ClientCallState} {chunk : Bytes} {r : UnaryResultRaw}
    (h : c.dataResult chunk = some r) : r = ClientCallState.frameError (c.feedChunk chunk) := by
  simp only [ClientCallState.dataResult] at h
  split at h
  · cases h
  · split at h
    · cases h
      rfl
    · cases h

/-- The result of a closed stream. -/
theorem closeResult_some {c : ClientCallState} {errorCode : Nat} {r : UnaryResultRaw}
    (h : c.closeResult errorCode = some r) : r = UnaryResultRaw.of (closeStatus errorCode) := by
  simp only [ClientCallState.closeResult] at h
  split at h
  · cases h
  · split at h
    · cases h
    · cases h
      rfl

/-- A successful result is made by a trailers-only response head or by the trailers. -/
theorem outcome_metadata {z : Zlib} {u : UnaryCompletion} {e : UnaryEvent} {r : UnaryResultRaw}
    (hr : u.outcome z e = some r) (hok : r.status.isOk = true)
    (hfail : ∀ s, e = .fail s → s.isOk = false) :
    r.initialMetadata = (headBlocks [e]).foldl collect u.call.result.initialMetadata ∧
      r.trailingMetadata = (trailerBlocks z [e]).foldl collect u.call.result.trailingMetadata := by
  cases e with
  | attach head =>
      rcases headResult_error (outcome_attach hr) with ⟨hhead, rfl⟩ | ⟨_, herr, _⟩
      · simp [headBlocks, trailerBlocks, hhead]
      · rw [herr] at hok
        cases hok
  | trailers h =>
      rcases trailersResult_some hr with ⟨_, hinit, htrail⟩ | ⟨_, hcode⟩
      · exact ⟨hinit, htrail⟩
      · simp [Status.isOk, hcode] at hok
  -- a frame error is never `OK`
  | data chunk =>
      rw [dataResult_some hr, ClientCallState.frameError] at hok
      split at hok <;> cases hok
  | close errorCode =>
      rw [closeResult_some hr] at hok
      exact absurd hok (by simp [UnaryResultRaw.of, closeStatus_not_ok])
  | deadline =>
      cases hr
      cases hok
  | cancel =>
      cases hr
      cases hok
  | fail s =>
      cases hr
      exact absurd hok (by simp [UnaryResultRaw.of, hfail s rfl])
  | armTimer => cases hr
  | expire => cases hr
  | timerHandler => cases hr
  | runIoc i => cases hr

/-- A result reports an exhausted resource exactly if the event that ends the call does. -/
theorem outcome_exhausted {z : Zlib} {u : UnaryCompletion} {e : UnaryEvent} {r : UnaryResultRaw}
    (hr : u.outcome z e = some r) : r.status.code = .resourceExhausted ↔ Exhausts z u e := by
  cases e with
  | attach head =>
      simp only [Exhausts]
      rcases headResult_error (outcome_attach hr) with ⟨hhead, rfl⟩ | ⟨hhead, _, hcode⟩
      · simp [hhead]
      · simp [hhead, hcode]
  | trailers h =>
      simp only [Exhausts]
      rcases trailersResult_some hr with ⟨hstatus, _, _⟩ | ⟨hok, hcode⟩
      · rw [hstatus]
      · -- under an OK status the only error is that of the decompression
        have hne : (extractTrailerStatus h).code = .ok := by simpa [Status.isOk] using hok
        rw [hcode, hne]
        decide
  | data chunk =>
      rw [dataResult_some hr]
      simp only [Exhausts, ClientCallState.frameError, UnaryResultRaw.of, Status.of]
      cases (u.call.feedChunk chunk).limitExceeded <;> decide
  | close errorCode =>
      rw [closeResult_some hr]
      exact Iff.rfl
  | deadline =>
      cases hr
      simp only [Exhausts]
      decide
  | cancel =>
      cases hr
      simp only [Exhausts]
      decide
  | fail s =>
      cases hr
      exact Iff.rfl
  | armTimer => cases hr
  | expire => cases hr
  | timerHandler => cases hr
  | runIoc i => cases hr

/-- The block that the events collected, if there is one, is in the map. -/
theorem subperm_foldl_collect {hs : List HeaderMap} (hone : hs.length ≤ 1)
    (hfits : ∀ h ∈ hs, FitsLimit h) :
    ∀ h ∈ hs, (applicationEntries h).Subperm (hs.foldl collect []) := by
  -- no block, or one that is collected into an empty map
  rcases hs with _ | ⟨h, _ | ⟨h', hs⟩⟩
  · simp
  · intro h' hmem
    rw [List.mem_singleton.1 hmem]
    exact subperm_collect (hfits h List.mem_cons_self)
  · simp at hone

/-- **A result tells the truth about its metadata exactly if every block is within the limit**, or
what ends the call reports an exhausted resource. In every run with one response head: `e` ends the
call after the events `pre`, whatever comes after it. -/
theorem reportsMetadata_iff {z : Zlib} {ctx : Option ClientContext} {pre post : List UnaryEvent}
    {e : UnaryEvent} {u u' : UnaryCompletion} {r : UnaryResultRaw}
    (hpre : (machine z).run (new ctx) pre = some u) (hopen : u.call.completed = false)
    (hpost : (machine z).run u (e :: post) = some u') (hends : (u.outcome z e).isSome = true)
    (hr : r ∈ u'.ioc ++ u'.invoked) (hone : (headBlocks (pre ++ [e])).length ≤ 1)
    (hfail : ∀ s, e = .fail s → s.isOk = false) :
    ReportsMetadata (headBlocks (pre ++ [e])) (trailerBlocks z [e]) r ↔
      (∀ h ∈ headBlocks (pre ++ [e]) ++ trailerBlocks z [e], FitsLimit h) ∨ Exhausts z u e := by
  obtain ⟨r₀, hr₀⟩ := Option.isSome_iff_exists.1 hends
  -- the result is the one of the event that ends the call
  have honce : u.gate.AtMostOnce :=
    (Machine.run_invariant (M := machine z) (I := CompletionInvariant)
      (fun _ _ _ hs hstep => completionInvariant_step hs hstep) pre _ u
      (completionInvariant_new ctx) hpre).once
  have hresult : r = r₀ := by
    rw [run_firstOutcome _ u u' honce hopen hpost, firstOutcome, hr₀] at hr
    simpa using hr
  subst hresult
  have hexhausted := outcome_exhausted hr₀
  constructor
  -- a block over the limit is reported only by an exhausted resource
  · intro hreports
    by_contra hnot
    obtain ⟨hfits, hno⟩ := not_or.1 hnot
    apply hfits
    intro h hmem
    by_contra hlarge
    exact hno (hexhausted.1 (hreports.exhausted h hmem hlarge))
  · rintro (hfits | hyes)
    -- the result holds what the blocks gave, and each block was collected whole
    · have hcollected := run_result pre (new ctx) u hpre hopen
      have hheads : headBlocks (pre ++ [e]) = headBlocks pre ++ headBlocks [e] :=
        List.filterMap_append
      have hinit : (headBlocks (pre ++ [e])).foldl collect [] =
          (headBlocks [e]).foldl collect u.call.result.initialMetadata := by
        rw [hheads, List.foldl_append, hcollected]
        rfl
      have htrail : u.call.result.trailingMetadata = [] := by
        rw [hcollected]
        rfl
      refine ⟨fun hok => ?_, fun hok => ?_, fun h hmem hlarge => ?_⟩
      · rw [(outcome_metadata hr₀ hok hfail).1, ← hinit]
        exact subperm_foldl_collect hone fun h hmem => hfits h (List.mem_append_left _ hmem)
      · rw [(outcome_metadata hr₀ hok hfail).2, htrail]
        refine subperm_foldl_collect ?_ fun h hmem => hfits h (List.mem_append_right _ hmem)
        exact List.length_filterMap_le _ [e]
      · exact absurd (hfits h hmem) hlarge
    · have hcode := hexhausted.2 hyes
      have hnotok : r.status.isOk ≠ true := by simp [Status.isOk, hcode]
      exact ⟨fun hok => absurd hok hnotok, fun hok => absurd hok hnotok, fun _ _ _ => hcode⟩

/-- A response head with one application entry. -/
def tracedHead : ResponseHead :=
  ⟨200, [(text "content-type", plain (text "application/grpc")), (text "trace", plain (text "a"))]⟩

/-- Trailers of a successful call with one application entry under the key `x`. -/
def valueTrailers (value : Bytes) : HeaderMap :=
  [(text "grpc-status", plain (text "0")), (text "x", plain value)]

/-- A call that has its response head and an empty message. -/
def answered : UnaryCompletion :=
  ((machine Zlib.none).run (new none) [.attach tracedHead, .data [0, 0, 0, 0, 0]]).getD (new none)

/-- The result after small trailers. -/
def smallResult : UnaryResultRaw :=
  ⟨Status.okStatus, [], [(text "trace", text "a")], [(text "x", text "b")], true⟩

/-- Small trailers are reported. -/
theorem reportsMetadata_example :
    ReportsMetadata [tracedHead.header] [valueTrailers (text "b")] smallResult :=
  (reportsMetadata_iff (z := Zlib.none) (u := answered) (r := smallResult)
    (show (machine Zlib.none).run (new none) [.attach tracedHead, .data [0, 0, 0, 0, 0]] =
      some answered by decide) (by decide)
    (show (machine Zlib.none).run answered [.trailers (valueTrailers (text "b"))] =
      some (answered.after (answered.call.onTrailers Zlib.none (valueTrailers (text "b")))) from
        rfl)
    (by decide) (by decide) (by decide) (fun s h => by cases h)).2 (Or.inl (by decide))

/-- Trailers over the limit of 8192 bytes by one. -/
theorem not_fitsLimit_valueTrailers : ¬ FitsLimit (valueTrailers (List.replicate 8192 97)) := by
  have hentries : applicationEntries (valueTrailers (List.replicate 8192 97)) =
      [(text "x", List.replicate 8192 97)] := rfl
  have hkey : (text "x").length = 1 := rfl
  have hnil : totalSize [] = 0 := rfl
  simp only [FitsLimit, hentries, totalSize_cons, List.length_replicate, kMaxMetadataSize, hkey,
    hnil]
  omega

/-- **A call can succeed with a truncated map.** The trailers exceed the limit by one byte. -/
theorem not_reportsMetadata :
    ¬ ∀ (z : Zlib) (ctx : Option ClientContext) (pre post : List UnaryEvent) (e : UnaryEvent)
      (u u' : UnaryCompletion) (r : UnaryResultRaw),
      (machine z).run (new ctx) pre = some u → u.call.completed = false →
        (machine z).run u (e :: post) = some u' → (u.outcome z e).isSome = true →
          r ∈ u'.ioc ++ u'.invoked → (headBlocks (pre ++ [e])).length ≤ 1 →
            (∀ s, e = .fail s → s.isOk = false) →
              ReportsMetadata (headBlocks (pre ++ [e])) (trailerBlocks z [e]) r := by
  intro h
  have hopen : answered.call.completed = false := by decide
  have htruncated : ∀ value, FitsLimit (valueTrailers value) := by
    intro value
    by_contra hlarge
    obtain ⟨r, hr⟩ := trailersResult_isSome (z := Zlib.none) hopen (valueTrailers value)
    have hposted : r ∈ (answered.after (answered.call.onTrailers Zlib.none
        (valueTrailers value))).ioc ++ answered.invoked := by
      simp [after, ClientCallState.onTrailers, ClientCallState.completeWith,
        ClientCallState.complete, hopen, hr]
    have hreports := h Zlib.none none [.attach tracedHead, .data [0, 0, 0, 0, 0]] []
      (.trailers (valueTrailers value)) answered _ r (by decide) hopen rfl
      (by rw [outcome, hr]; rfl) hposted (by simp [headBlocks]) (fun s h => by cases h)
    have hcode := hreports.exhausted (valueTrailers value) (by simp [trailerBlocks]) hlarge
    -- the status of the result is the one of the trailers
    rcases trailersResult_some hr with ⟨hstatus, _, _⟩ | ⟨_, hinternal⟩
    · have hok : (extractTrailerStatus (valueTrailers value)).code = .ok := rfl
      rw [hstatus, hok] at hcode
      cases hcode
    · rw [hinternal] at hcode
      cases hcode
  exact not_fitsLimit_valueTrailers (htruncated _)

end UnaryCompletion

end Rpcpio.Client
