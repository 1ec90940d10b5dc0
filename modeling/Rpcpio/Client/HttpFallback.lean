import Rpcpio.Client.CallState
import Rpcpio.Client.TrailersOnly

/-!
# The HTTP status and the status of the header block

Every `Attach` looks at the content type and at `:status` before it looks at `grpc-status`, and the
unary one also at `grpc-encoding`. A response head with a `grpc-status` therefore ends a call with
the status it carries exactly when none of the earlier checks fires with another one and, for a
streaming call, nothing overtakes the posted closure (`http_fallback_without_status`).
-/

set_option autoImplicit false

namespace Rpcpio.Client

open Rpcpio.Library Rpcpio.Protocol

/-- The checks of `Attach` that end the call with `Status::FromHttpStatus`. -/
def FallsBack (head : ResponseHead) : Prop :=
  isGrpc head.header = false ∨ head.statusCode ≠ 200

instance (head : ResponseHead) : Decidable (FallsBack head) :=
  inferInstanceAs (Decidable (_ ∨ _))

/-- The status for a `grpc-encoding` outside the registry. -/
def unsupportedEncoding (value : Bytes) : Status :=
  Status.of .unimplemented (text "unsupported grpc-encoding: " ++ value)

theorem headVerdict_of_fallsBack {head : ResponseHead} (h : FallsBack head) :
    headVerdict head = .rejected (Status.fromHttpStatus head.statusCode) := by
  simp only [headVerdict]
  rcases h with h | h
  · simp [h]
  · simp [h]

theorem headVerdict_of_not_fallsBack {head : ResponseHead} (h : ¬ FallsBack head) :
    headVerdict head =
      if Multimap.contains (text "grpc-status") head.header then
        .trailersOnly (extractTrailerStatus head.header)
      else .accepted := by
  simp only [FallsBack, not_or, Bool.not_eq_false, not_not] at h
  simp [headVerdict, h.1, h.2]

/-- A streaming call ends at a response head that carries a status. -/
theorem endsAtHeaders_of_status {head : ResponseHead}
    (h : Multimap.contains (text "grpc-status") head.header = true) :
    StreamingCall.EndsAtHeaders (extractTrailerStatus head.header) head := by
  by_cases hf : FallsBack head
  · rw [StreamingCall.EndsAtHeaders, headVerdict_of_fallsBack hf]
    simp
  · rw [StreamingCall.EndsAtHeaders, headVerdict_of_not_fallsBack hf, if_pos h]
    constructor
    · simp
    · intro a ha
      cases ha
      rfl

namespace ClientCallState

theorem headResult_of_fallsBack {z : Zlib} {c : ClientCallState} {head : ResponseHead}
    (h : FallsBack head) :
    ∃ r, c.headResult z head = .error r ∧ r.status = Status.fromHttpStatus head.statusCode := by
  simp only [headResult]
  by_cases hg : isGrpc head.header = true
  · rcases h with h | h
    · rw [hg] at h
      cases h
    · simp [hg, h]
  · simp [hg]

/-- Past the fallback, an unsupported encoding is reported before the status is read. -/
theorem headResult_of_unsupported {z : Zlib} {c : ClientCallState} {head : ResponseHead}
    (h : ¬ FallsBack head) {v : HeaderValue}
    (hv : Multimap.find (text "grpc-encoding") head.header = some v)
    (hp : parseEncoding z v.value = none) :
    ∃ r, c.headResult z head = .error r ∧ r.status = unsupportedEncoding v.value := by
  simp only [FallsBack, not_or, Bool.not_eq_false, not_not] at h
  have hne : v.value ≠ text "identity" := by
    intro heq
    simp [parseEncoding, heq] at hp
  simp [headResult, h.1, h.2, hv, hp, hne, unsupportedEncoding, UnaryResultRaw.of]

/-- With a supported encoding, or none, the status of the header block is the result. -/
theorem headResult_of_supported {z : Zlib} {c : ClientCallState} {head : ResponseHead}
    (h : ¬ FallsBack head)
    (hp : ∀ v, Multimap.find (text "grpc-encoding") head.header = some v →
      parseEncoding z v.value ≠ none)
    (hs : Multimap.contains (text "grpc-status") head.header = true) :
    ∃ r, c.headResult z head = .error r ∧ r.status = extractTrailerStatus head.header := by
  simp only [FallsBack, not_or, Bool.not_eq_false, not_not] at h
  simp only [headResult, h.1, h.2, Bool.not_true, Bool.false_eq_true, if_false, ne_eq,
    not_true_eq_false, hs, if_true]
  cases hv : Multimap.find (text "grpc-encoding") head.header with
  | none => exact ⟨_, rfl, rfl⟩
  | some v =>
      obtain ⟨enc, henc⟩ := Option.ne_none_iff_exists'.1 (hp v hv)
      by_cases hid : v.value = text "identity"
      · simp [hid]
      · simp [hid, henc]

end ClientCallState

namespace UnaryCompletion

/-- The condition on a step under which a unary call ends with `s`: while the call is open, no event
completes it with another status. -/
def Undisturbed (z : Zlib) (s : Status) (u : UnaryCompletion) (e : UnaryEvent) : Prop :=
  u.call.completed = false → ∀ r, u.outcome z e = some r → r.status = s

/-- Along a run of a completed call the condition holds. -/
theorem along_of_completed {z : Zlib} {s : Status} {es : List UnaryEvent} {u : UnaryCompletion}
    (hc : u.call.completed = true) : (machine z).Along (Undisturbed z s) u es := by
  induction es generalizing u with
  | nil => trivial
  | cons e es ih =>
      constructor
      · intro hopen
        rw [hc] at hopen
        cases hopen
      · intro v hv
        exact ih (Gate.move_closed (step_gate hv) hc)

/-- **The first outcome of a run has status `s`** exactly when every event that completes the open
call does so with `s`. -/
theorem firstOutcome_iff_undisturbed {z : Zlib} {s : Status} {es : List UnaryEvent}
    {u u' : UnaryCompletion} {r : UnaryResultRaw} (hu : u.gate.AtMostOnce)
    (hopen : u.call.completed = false) (hrun : (machine z).run u es = some u')
    (hr : firstOutcome z u es = some r) :
    r.status = s ↔ (machine z).Along (Undisturbed z s) u es := by
  induction es generalizing u with
  | nil => cases hr
  | cons e es ih =>
      obtain ⟨v, hv, hrest⟩ := Machine.run_cons_some.1 hrun
      have hstep : step z u e = some v := hv
      have hmove := step_gate hstep
      cases ho : u.outcome z e with
      | some q =>
          rw [firstOutcome, ho, Option.some_or, Option.some.injEq] at hr
          subst hr
          have hm : u.gateMove z e = .post q := by
            simp only [gateMove]
            rw [ho]
          rw [hm] at hmove
          -- the outcome closes the gate, and nothing later can disturb it
          have hclosed : v.call.completed = true := (Gate.decided_post hopen hu hmove).closed
          constructor
          · intro hs
            constructor
            · intro _ p hp
              rw [ho, Option.some.injEq] at hp
              exact hp ▸ hs
            · intro w hw
              rw [hv, Option.some.injEq] at hw
              exact along_of_completed (hw ▸ hclosed)
          · intro hgood
            exact hgood.1 hopen q ho
      | none =>
          rw [firstOutcome, ho, Option.none_or, hstep, Option.bind_some] at hr
          -- no outcome yet: the call stays open, and the rest of the run decides
          have hvopen : v.call.completed = false := by
            rcases gateMove_of_none (e := e) ho with hm | ⟨i, hm⟩
            · rw [hm] at hmove
              exact (congrArg Gate.closed (Option.some.inj hmove)).symm.trans hopen
            · rw [hm] at hmove
              obtain ⟨a, _, ha⟩ := Option.map_eq_some_iff.1 hmove
              exact (congrArg Gate.closed ha).symm.trans hopen
          rw [ih (hu.move (gateMove_isClosing z u e) (step_gate hstep)) hvopen hrest hr]
          constructor
          · intro hgood
            constructor
            · intro _ p hp
              rw [ho] at hp
              cases hp
            · intro w hw
              rw [hv, Option.some.injEq] at hw
              exact hw ▸ hgood
          · intro hgood
            exact hgood.2 v hv

/-- A response head that carries a status completes an open call. -/
theorem firstOutcome_of_attach {z : Zlib} {head : ResponseHead}
    (hs : Multimap.contains (text "grpc-status") head.header = true) {es : List UnaryEvent}
    {u u' : UnaryCompletion} (hrun : (machine z).run u es = some u')
    (hmem : UnaryEvent.attach head ∈ es) : ∃ r, firstOutcome z u es = some r := by
  induction es generalizing u with
  | nil => cases hmem
  | cons e es ih =>
      obtain ⟨v, hv, hrest⟩ := Machine.run_cons_some.1 hrun
      have hstep : step z u e = some v := hv
      cases ho : u.outcome z e with
      | some q => exact ⟨q, by rw [firstOutcome, ho, Option.some_or]⟩
      | none =>
          rcases List.mem_cons.1 hmem with rfl | hmem
          · -- every branch of `Attach` completes the call
            exfalso
            have herror : ∃ r, u.call.headResult z head = .error r := by
              by_cases hf : FallsBack head
              · obtain ⟨r, hr, _⟩ := ClientCallState.headResult_of_fallsBack (z := z)
                  (c := u.call) hf
                exact ⟨r, hr⟩
              · by_cases hp : ∀ v, Multimap.find (text "grpc-encoding") head.header = some v →
                    parseEncoding z v.value ≠ none
                · obtain ⟨r, hr, _⟩ :=
                    ClientCallState.headResult_of_supported (c := u.call) hf hp hs
                  exact ⟨r, hr⟩
                · simp only [not_forall, not_not] at hp
                  obtain ⟨v, hv, hnone⟩ := hp
                  obtain ⟨r, hr, _⟩ := ClientCallState.headResult_of_unsupported (c := u.call) hf
                    hv hnone
                  exact ⟨r, hr⟩
            obtain ⟨r, hr⟩ := herror
            simp [outcome, hr] at ho
          · obtain ⟨r, hr⟩ := ih hrest hmem
            exact ⟨r, by rw [firstOutcome, ho, Option.none_or, hstep, Option.bind_some, hr]⟩

/-- The condition on a step of a unary call under which the status `s` of the header block stands:
while the call is open, `Attach` neither falls back on the HTTP status nor rejects the encoding, and
nothing else completes the call, unless with the same status. -/
def HeaderStatusStands (z : Zlib) (s : Status) (u : UnaryCompletion) (e : UnaryEvent) : Prop :=
  u.call.completed = false →
    match e with
    | .attach head =>
        (FallsBack head → Status.fromHttpStatus head.statusCode = s) ∧
          (¬ FallsBack head → ∀ v, Multimap.find (text "grpc-encoding") head.header = some v →
            parseEncoding z v.value = none → unsupportedEncoding v.value = s)
    | e => ∀ r, u.outcome z e = some r → r.status = s

theorem headerStatusStands_iff {z : Zlib} {head : ResponseHead}
    (hs : Multimap.contains (text "grpc-status") head.header = true) (u : UnaryCompletion)
    {e : UnaryEvent} (he : ∀ other, e = .attach other → other = head) :
    HeaderStatusStands z (extractTrailerStatus head.header) u e ↔
      Undisturbed z (extractTrailerStatus head.header) u e := by
  apply imp_congr_right
  intro _
  cases e with
  | attach other =>
      obtain rfl := he other rfl
      by_cases hf : FallsBack other
      · obtain ⟨r, hr, hstatus⟩ := ClientCallState.headResult_of_fallsBack (z := z) (c := u.call) hf
        simp [outcome, hr, hstatus, hf]
      · by_cases hp : ∀ v, Multimap.find (text "grpc-encoding") other.header = some v →
            parseEncoding z v.value ≠ none
        · obtain ⟨r, hr, hstatus⟩ :=
            ClientCallState.headResult_of_supported (c := u.call) hf hp hs
          simp only [outcome, hr, hf, false_implies, not_false_eq_true, true_implies, true_and,
            Option.some.injEq, forall_eq', hstatus, iff_true]
          intro v hv hnone
          exact absurd hnone (hp v hv)
        · simp only [not_forall, not_not] at hp
          obtain ⟨v, hv, hnone⟩ := hp
          obtain ⟨r, hr, hstatus⟩ :=
            ClientCallState.headResult_of_unsupported (c := u.call) hf hv hnone
          simp [outcome, hr, hstatus, hf, hv, hnone]
  | _ => exact Iff.rfl

/-- A unary call whose response head carries a status ends with it exactly when nothing completes
it with another one. -/
theorem ends_iff_headerStatusStands {z : Zlib} {head : ResponseHead}
    (hs : Multimap.contains (text "grpc-status") head.header = true) {ctx : Option ClientContext}
    {es : List UnaryEvent} {u : UnaryCompletion} (hrun : (machine z).run (new ctx) es = some u)
    (hmem : UnaryEvent.attach head ∈ es)
    (honce : ∀ other, UnaryEvent.attach other ∈ es → other = head) :
    (u.ioc ++ u.invoked).map (·.status) = [extractTrailerStatus head.header] ↔
      (machine z).Along (HeaderStatusStands z (extractTrailerStatus head.header)) (new ctx) es := by
  obtain ⟨r, hr⟩ := firstOutcome_of_attach hs hrun hmem
  have hfirst := run_firstOutcome es (new ctx) u Gate.initial_atMostOnce rfl hrun
  rw [hr, Option.toList_some] at hfirst
  rw [hfirst, List.map_singleton, List.singleton_inj,
    firstOutcome_iff_undisturbed (u := new ctx) Gate.initial_atMostOnce rfl hrun hr]
  apply Machine.along_congr
  intro v e he
  exact (headerStatusStands_iff hs v fun other h => honce other (h ▸ he)).symm

end UnaryCompletion

namespace StreamingCall

/-- The condition on a step of a streaming call under which the status `s` of the header block
stands: while the call is open, `Attach` does not fall back on the HTTP status, and neither the
close nor `Fail` passes `closed_`, unless with the same status. -/
def HeaderStatusStands (s : Status) (w : StreamingCall) (e : CallEvent) : Prop :=
  w.call.closed = false →
    match e with
    | .response head => FallsBack head → Status.fromHttpStatus head.statusCode = s
    | e => ∀ a ∈ w.closingStatus e, a = s

theorem headerStatusStands_iff (s : Status) (w : StreamingCall) (e : CallEvent) :
    HeaderStatusStands s w e ↔ Undisturbed s w e := by
  apply imp_congr_right
  intro _
  cases e with
  | response head =>
      by_cases hf : FallsBack head
      · simp [closingStatus, failStatus, headVerdict_of_fallsBack hf, hf]
      · simp only [closingStatus, failStatus, headVerdict_of_not_fallsBack hf]
        have hnone : ∀ (b : Bool) (f : Status),
            (if b = true then HeadVerdict.trailersOnly (extractTrailerStatus head.header)
              else .accepted) ≠ .rejected f := by
          intro b f
          cases b <;> simp
        split
        · rename_i f hrejected
          exact absurd hrejected (hnone _ f)
        · simp [hf]
  | _ => exact Iff.rfl

end StreamingCall

/-- **The status of the header block decides the outcome** of each kind of call exactly in the runs
in which no earlier check of `Attach` fires and nothing else ends the call, unless with the same
status. -/
theorem http_fallback_without_status {z : Zlib} {head : ResponseHead}
    (hs : Multimap.contains (text "grpc-status") head.header = true) :
    (∀ (ctx : Option ClientContext) (es : List UnaryEvent) (u : UnaryCompletion),
      (UnaryCompletion.machine z).run (UnaryCompletion.new ctx) es = some u →
      UnaryEvent.attach head ∈ es → (∀ other, UnaryEvent.attach other ∈ es → other = head) →
      ((u.ioc ++ u.invoked).map (·.status) = [extractTrailerStatus head.header] ↔
        (UnaryCompletion.machine z).Along
          (UnaryCompletion.HeaderStatusStands z (extractTrailerStatus head.header))
          (UnaryCompletion.new ctx) es)) ∧
    ∀ (kind : CallKind) (ctx : Option ClientContext) (es : List CallEvent) (w : StreamingCall),
      StreamingCall.machine.run (StreamingCall.new (kind.callState ctx)) es = some w →
      CallEvent.response head ∈ es →
      (StreamingCall.machine.Along
          (StreamingCall.HeaderStatusStands (extractTrailerStatus head.header))
          (StreamingCall.new (kind.callState ctx)) es →
        w.EndsWith (extractTrailerStatus head.header)) ∧
      (w.strand = [] → w.ioc = [] → w.EndsWith (extractTrailerStatus head.header) →
        StreamingCall.machine.Along
          (StreamingCall.HeaderStatusStands (extractTrailerStatus head.header))
          (StreamingCall.new (kind.callState ctx)) es) := by
  constructor
  · intro ctx es u hrun hmem honce
    exact UnaryCompletion.ends_iff_headerStatusStands hs hrun hmem honce
  · intro kind ctx es w hrun hmem
    have hcongr := @Machine.along_congr _ _ StreamingCall.machine _ _ es
      (fun v e _ => StreamingCall.headerStatusStands_iff (extractTrailerStatus head.header) v e)
      (StreamingCall.new (kind.callState ctx))
    rw [hcongr]
    exact StreamingCall.endsWith_iff_undisturbed (endsAtHeaders_of_status hs) hmem hrun

/-- A unary and a bidirectional call end with the status of a trailers-only response. -/
theorem http_fallback_without_status_example :
    (∃ u, (UnaryCompletion.machine Zlib.none).run (UnaryCompletion.new none)
        [.attach StreamingCall.notFoundHead] = some u ∧
      (u.ioc ++ u.invoked).map (·.status) = [StreamingCall.notFoundStatus]) ∧
    ∃ w, StreamingCall.machine.run (StreamingCall.new (CallKind.bidi.callState none))
        [.submit (.accepted 1), .response StreamingCall.notFoundHead, .runIoc 0] = some w ∧
      w.EndsWith StreamingCall.notFoundStatus := by
  have hsome : (StreamingCall.machine.run (StreamingCall.new (CallKind.bidi.callState none))
      [.submit (.accepted 1), .response StreamingCall.notFoundHead, .runIoc 0]).isSome = true := by
    decide
  obtain ⟨w, hw⟩ := Option.isSome_iff_exists.1 hsome
  have hall := @http_fallback_without_status Zlib.none StreamingCall.notFoundHead (by decide)
  refine ⟨⟨_, rfl, ?_⟩, w, hw, ?_⟩
  · refine (hall.1 none [.attach StreamingCall.notFoundHead] _ rfl (by simp) (by simp)).2 ?_
    refine ⟨?_, fun _ _ => trivial⟩
    intro _
    exact ⟨fun h => absurd h (by decide), fun _ v hv => by cases hv⟩
  · refine (hall.2 .bidi none _ w hw (by simp)).1 ?_
    rw [Machine.along_congr fun v e _ => StreamingCall.headerStatusStands_iff _ v e]
    decide

/-- A response with a status but without a content type. -/
def bareStatusHead : ResponseHead := ⟨200, [(text "grpc-status", plain (text "12"))]⟩

/-- **The fallback overrides the status of the header block** when there is no content type. -/
theorem not_http_fallback_without_status :
    ¬ ∀ (z : Zlib) (head : ResponseHead),
      Multimap.contains (text "grpc-status") head.header = true →
      (∀ (ctx : Option ClientContext) (u : UnaryCompletion),
        (UnaryCompletion.machine z).run (UnaryCompletion.new ctx) [.attach head] = some u →
        (u.ioc ++ u.invoked).map (·.status) = [extractTrailerStatus head.header]) ∧
      ∀ (kind : CallKind) (ctx : Option ClientContext) (id : StreamId) (fs : List CallEvent)
        (w : StreamingCall), (∀ e ∈ fs, ∃ i, e = .runIoc i) →
        StreamingCall.machine.run (StreamingCall.new (kind.callState ctx))
          ([.submit (.accepted id), .response head] ++ fs) = some w →
        w.ioc = [] → w.EndsWith (extractTrailerStatus head.header) := by
  intro h
  have hunary := (h Zlib.none bareStatusHead (by decide)).1 none _ rfl
  exact absurd hunary (by decide)

end Rpcpio.Client
