import Rpcpio.Client.ClientContext
import Rpcpio.Library.Gate
import Rpcpio.Library.Machine
import Rpcpio.Protocol.Compression
import Rpcpio.Protocol.Framing

/-!
# The unary client call state

`ClientCallState` collects the response head, one message and the trailers of a unary call. Every
way to end the call goes through `Complete`, which closes `completed_` and posts the completion
callback. `CallState.machine` runs the member functions and the posted closures in any order;
`completion_once` says that the callback is invoked at most once, with the result of the first
event that ends the call.
-/

set_option autoImplicit false

namespace Rpcpio.Client

open Rpcpio.Library Rpcpio.Protocol

/-- `UnaryResultRaw`. -/
structure UnaryResultRaw where
  status : Status
  responseBytes : Bytes
  initialMetadata : MetadataMap
  trailingMetadata : MetadataMap
  hasResponse : Bool
  deriving DecidableEq, Repr

/-- `UnaryResultRaw{status}`. -/
def UnaryResultRaw.of (s : Status) : UnaryResultRaw := ⟨s, [], [], [], false⟩

/-- `ClientCallState`. -/
structure ClientCallState where
  ctx : Option ClientContext
  timer : Timer
  decoder : FrameDecoder
  result : UnaryResultRaw
  responseEncoding : Option Encoding
  completed : Bool
  initialMetaDone : Bool
  trailersDone : Bool
  deriving DecidableEq, Repr

namespace ClientCallState

/-- The constructor, which reads the limit of the context. -/
def new (ctx : Option ClientContext) : ClientCallState :=
  ⟨ctx, .idle, FrameDecoder.new (maxReceiveMessageSize ctx), UnaryResultRaw.of Status.okStatus,
    none, false, false, false⟩

/-- `ArmTimer`. -/
def armTimer (c : ClientCallState) : ClientCallState :=
  { c with timer := Client.armTimer c.ctx c.timer }

/-- `Complete`: the state, and the results of the callbacks it posts. -/
def complete (c : ClientCallState) (r : UnaryResultRaw) : ClientCallState × List UnaryResultRaw :=
  if c.completed then (c, [])
  else ({ c with completed := true, timer := c.timer.cancel }, [r])

/-- `Fail`. -/
def fail (c : ClientCallState) (s : Status) : ClientCallState × List UnaryResultRaw :=
  c.complete (UnaryResultRaw.of s)

/-- `Cancel`. -/
def cancel (c : ClientCallState) : ClientCallState × List UnaryResultRaw :=
  c.complete (UnaryResultRaw.of callCancelled)

/-- The result that `OnStreamClose` completes with. -/
def closeResult (c : ClientCallState) (errorCode : Nat) : Option UnaryResultRaw :=
  if c.completed then none
  else if c.trailersDone then none
  else some (UnaryResultRaw.of (closeStatus errorCode))

/-- The result that a rejected or trailers-only response head completes with, and the encoding of an
accepted one. -/
def headResult (z : Zlib) (c : ClientCallState) (head : ResponseHead) :
    Except UnaryResultRaw (Option Encoding) :=
  let initial := (nghttp2HeadersToMetadata head.header c.result.initialMetadata kMaxMetadataSize).2
  if !isGrpc head.header then
    .error ⟨Status.fromHttpStatus head.statusCode, [], initial, [], false⟩
  else if head.statusCode ≠ 200 then
    .error ⟨Status.fromHttpStatus head.statusCode, [], initial, [], false⟩
  else
    let encoding : Except UnaryResultRaw (Option Encoding) :=
      match Multimap.find (text "grpc-encoding") head.header with
      | none => .ok c.responseEncoding
      | some v =>
          if v.value = text "identity" then .ok c.responseEncoding
          else
            match parseEncoding z v.value with
            | none =>
                .error (UnaryResultRaw.of
                  (Status.of .unimplemented (text "unsupported grpc-encoding: " ++ v.value)))
            | some enc => .ok (some enc)
    match encoding with
    | .error r => .error r
    | .ok enc =>
        if Multimap.contains (text "grpc-status") head.header then
          .error { c.result with
            status := extractTrailerStatus head.header
            initialMetadata := initial
            trailingMetadata :=
              (nghttp2HeadersToMetadata head.header c.result.trailingMetadata kMaxMetadataSize).2 }
        else .ok enc

/-- `Attach`: the state, the posted callbacks, and whether `on_data` and `on_trailers` are
registered. -/
def attach (z : Zlib) (c : ClientCallState) (head : ResponseHead) :
    ClientCallState × List UnaryResultRaw × Bool :=
  match c.headResult z head with
  | .error r => ((c.complete r).1, (c.complete r).2, false)
  | .ok enc =>
      ({ c with
          result := { c.result with
            initialMetadata := (nghttp2HeadersToMetadata head.header c.result.initialMetadata
              kMaxMetadataSize).2 }
          responseEncoding := enc
          initialMetaDone := true }, [], true)

/-- The result for a framing error. -/
def frameError (d : FrameDecoder) : UnaryResultRaw :=
  UnaryResultRaw.of
    (Status.of (if d.limitExceeded then .resourceExhausted else .internal)
      (text "frame error: " ++ d.errorMessage))

/-- The decoder after a data closure, which marks the end of the stream on an empty chunk. -/
def feedChunk (c : ClientCallState) (chunk : Bytes) : FrameDecoder :=
  if chunk.isEmpty then c.decoder.markEos else c.decoder.feed chunk

/-- The result that a data closure completes with. -/
def dataResult (c : ClientCallState) (chunk : Bytes) : Option UnaryResultRaw :=
  if c.completed then none
  else if (c.feedChunk chunk).isError then some (frameError (c.feedChunk chunk)) else none

/-- Whether the trailers closure decompresses the message, and so reads the limit of the context. -/
def needsDecompression (c : ClientCallState) (trailers : HeaderMap) : Bool :=
  !c.completed && (extractTrailerStatus trailers).isOk &&
    (c.responseEncoding.any fun enc => enc ≠ .identity) && c.decoder.compressFlag ≠ 0

/-- The result that the trailers closure completes with. -/
def trailersResult (z : Zlib) (c : ClientCallState) (trailers : HeaderMap) :
    Option UnaryResultRaw :=
  if c.completed then none
  else
    let r := { c.result with
      status := extractTrailerStatus trailers
      trailingMetadata :=
        (nghttp2HeadersToMetadata trailers c.result.trailingMetadata kMaxMetadataSize).2 }
    if !r.status.isOk then some r
    else
      let rawPayload := if c.decoder.isDone then c.decoder.payload else []
      if c.needsDecompression trailers then
        match decompress z (c.responseEncoding.getD .identity) rawPayload
            (maxReceiveMessageSize c.ctx) with
        | none =>
            some (UnaryResultRaw.of
              (Status.of .internal (text "response decompression failed")))
        | some bytes => some { r with responseBytes := bytes, hasResponse := c.decoder.isDone }
      else
        some { r with
          responseBytes := c.decoder.takePayload.1
          hasResponse := c.decoder.isDone }

/-- `Complete` with a result, if the branch taken has one. -/
def completeWith (c : ClientCallState) :
    Option UnaryResultRaw → ClientCallState × List UnaryResultRaw
  | none => (c, [])
  | some r => c.complete r

/-- `OnStreamClose`. -/
def onStreamClose (c : ClientCallState) (errorCode : Nat) :
    ClientCallState × List UnaryResultRaw :=
  c.completeWith (c.closeResult errorCode)

/-- The closure posted by `on_data`. -/
def onData (c : ClientCallState) (chunk : Bytes) : ClientCallState × List UnaryResultRaw :=
  if c.completed then (c, [])
  else { c with decoder := c.feedChunk chunk }.completeWith (c.dataResult chunk)

/-- The closure posted by `on_trailers`. -/
def onTrailers (z : Zlib) (c : ClientCallState) (trailers : HeaderMap) :
    ClientCallState × List UnaryResultRaw :=
  if c.completed then (c, [])
  else { c with trailersDone := true }.completeWith (c.trailersResult z trailers)

end ClientCallState

/-! ## The member functions in any order -/

/-- A call with the completion callbacks posted to the `io_context` and those invoked. -/
structure UnaryCompletion where
  call : ClientCallState
  ioc : List UnaryResultRaw
  invoked : List UnaryResultRaw
  deriving DecidableEq, Repr

/-- The events of a unary call: member functions, posted closures, the timer, and the posted
callbacks. -/
inductive UnaryEvent where
  | armTimer
  | attach (head : ResponseHead)
  | data (chunk : Bytes)
  | trailers (h : HeaderMap)
  | close (errorCode : Nat)
  | expire
  | timerHandler
  | deadline
  | cancel
  | fail (s : Status)
  | runIoc (i : Nat)
  deriving DecidableEq, Repr

namespace UnaryCompletion

/-- A new call. -/
def new (ctx : Option ClientContext) : UnaryCompletion := ⟨ClientCallState.new ctx, [], []⟩

/-- The call after a member function that posts callbacks. -/
def after (u : UnaryCompletion) (r : ClientCallState × List UnaryResultRaw) : UnaryCompletion :=
  { u with call := r.1, ioc := u.ioc ++ r.2 }

/-- One event. The timer's handler only posts the closure `deadline`. -/
def step (z : Zlib) (u : UnaryCompletion) : UnaryEvent → Option UnaryCompletion
  | .armTimer => some { u with call := u.call.armTimer }
  | .attach head => some (u.after ((u.call.attach z head).1, (u.call.attach z head).2.1))
  | .data chunk => some (u.after (u.call.onData chunk))
  | .trailers h => some (u.after (u.call.onTrailers z h))
  | .close errorCode => some (u.after (u.call.onStreamClose errorCode))
  | .expire => u.call.timer.expire.map fun t => { u with call := { u.call with timer := t } }
  | .timerHandler => u.call.timer.fire.map fun t => { u with call := { u.call with timer := t } }
  | .deadline => some (u.after (u.call.complete (UnaryResultRaw.of deadlineExceeded)))
  | .cancel => some (u.after u.call.cancel)
  | .fail s => some (u.after (u.call.fail s))
  | .runIoc i =>
      u.ioc[i]?.map fun r => { u with ioc := u.ioc.eraseIdx i, invoked := u.invoked ++ [r] }

/-- The events as a machine. -/
def machine (z : Zlib) : Machine UnaryCompletion UnaryEvent := ⟨step z⟩

/-- The result with which an event calls `Complete`, if it does. -/
def outcome (z : Zlib) (u : UnaryCompletion) : UnaryEvent → Option UnaryResultRaw
  | .attach head =>
      match u.call.headResult z head with
      | .error r => some r
      | .ok _ => none
  | .data chunk => u.call.dataResult chunk
  | .trailers h => u.call.trailersResult z h
  | .close errorCode => u.call.closeResult errorCode
  | .deadline => some (UnaryResultRaw.of deadlineExceeded)
  | .cancel => some (UnaryResultRaw.of callCancelled)
  | .fail s => some (UnaryResultRaw.of s)
  | _ => none

/-- The gate of a call: `completed_`, the callbacks posted and those invoked. -/
def gate (u : UnaryCompletion) : Gate UnaryResultRaw := ⟨u.call.completed, u.ioc, u.invoked⟩

/-- The move of the gate that an event makes. -/
def gateMove (z : Zlib) (u : UnaryCompletion) (e : UnaryEvent) : GateMove UnaryResultRaw :=
  match u.outcome z e with
  | some r => .post r
  | none =>
      match e with
      | .runIoc i => .deliver i
      | _ => .stay

/-- `Complete` posts at the gate. -/
theorem gate_complete {u : UnaryCompletion} {c : ClientCallState} (r : UnaryResultRaw)
    (hc : c.completed = u.call.completed) :
    u.gate.move (.post r) = some (u.after (c.complete r)).gate := by
  simp only [Gate.move, ClientCallState.complete, hc]
  by_cases h : u.call.completed = true <;> simp [gate, after, h, hc]

theorem gate_completeWith {u : UnaryCompletion} {c : ClientCallState} (r : Option UnaryResultRaw)
    (hc : c.completed = u.call.completed) :
    u.gate.move (match r with | some r => .post r | none => .stay) =
      some (u.after (c.completeWith r)).gate := by
  cases r with
  | none => simp [Gate.move, ClientCallState.completeWith, gate, after, hc]
  | some r => exact gate_complete r hc

/-- **Every event of a unary call is a move of its gate.** -/
theorem step_gate {z : Zlib} {u u' : UnaryCompletion} {e : UnaryEvent} (h : step z u e = some u') :
    u.gate.move (u.gateMove z e) = some u'.gate := by
  cases e with
  | armTimer =>
      cases h
      rfl
  | attach head =>
      cases h
      simp only [gateMove, outcome, ClientCallState.attach]
      cases hr : u.call.headResult z head with
      | error r => exact gate_complete r rfl
      | ok enc => simp [Gate.move, gate, after]
  | data chunk =>
      cases h
      simp only [gateMove, outcome, ClientCallState.onData]
      -- the closures post to the strand, so that the call may have completed before they run
      by_cases hc : u.call.completed = true
      · simp [ClientCallState.dataResult, hc, Gate.move, gate, after]
      · simp only [if_neg hc]
        exact gate_completeWith (c := { u.call with decoder := u.call.feedChunk chunk }) _ rfl
  | trailers hd =>
      cases h
      simp only [gateMove, outcome, ClientCallState.onTrailers]
      by_cases hc : u.call.completed = true
      · simp [ClientCallState.trailersResult, hc, Gate.move, gate, after]
      · simp only [if_neg hc]
        exact gate_completeWith (c := { u.call with trailersDone := true }) _ rfl
  | close errorCode =>
      cases h
      exact gate_completeWith (c := u.call) _ rfl
  | expire =>
      obtain ⟨t, _, rfl⟩ := Option.map_eq_some_iff.1 h
      rfl
  | timerHandler =>
      obtain ⟨t, _, rfl⟩ := Option.map_eq_some_iff.1 h
      rfl
  | deadline =>
      cases h
      exact gate_complete _ rfl
  | cancel =>
      cases h
      exact gate_complete _ rfl
  | fail s =>
      cases h
      exact gate_complete _ rfl
  | runIoc i =>
      obtain ⟨r, hr, rfl⟩ := Option.map_eq_some_iff.1 h
      simp [gateMove, outcome, Gate.move, gate, hr]

/-- Every branch of the trailers closure completes an open call. -/
theorem trailersResult_isSome {z : Zlib} {c : ClientCallState} (hc : c.completed = false)
    (trailers : HeaderMap) : ∃ r, c.trailersResult z trailers = some r := by
  simp only [ClientCallState.trailersResult, hc, Bool.false_eq_true, if_false]
  split
  · exact ⟨_, rfl⟩
  · split
    · split <;> exact ⟨_, rfl⟩
    · exact ⟨_, rfl⟩

/-- `Complete` leaves the call completed and does not touch `trailers_done_`. -/
theorem complete_flags (c : ClientCallState) (r : UnaryResultRaw) :
    (c.complete r).1.completed = true ∧ (c.complete r).1.trailersDone = c.trailersDone := by
  simp only [ClientCallState.complete]
  split
  · rename_i h
    exact ⟨h, rfl⟩
  · exact ⟨rfl, rfl⟩

/-- A step keeps `trailers_done_`, or completes the call. -/
theorem step_trailersDone {z : Zlib} {u u' : UnaryCompletion} {e : UnaryEvent}
    (h : step z u e = some u') :
    u'.call.trailersDone = u.call.trailersDone ∨ u'.call.completed = true := by
  cases e with
  | armTimer =>
      cases h
      exact Or.inl rfl
  | attach head =>
      cases h
      simp only [after, ClientCallState.attach]
      split
      · exact Or.inr (complete_flags _ _).1
      · exact Or.inl rfl
  | data chunk =>
      cases h
      simp only [after, ClientCallState.onData]
      split
      · exact Or.inl rfl
      · cases u.call.dataResult chunk with
        | none => exact Or.inl rfl
        | some r => exact Or.inr (complete_flags _ _).1
  | trailers hd =>
      cases h
      -- trailers always complete the call, if nothing has before
      apply Or.inr
      simp only [after, ClientCallState.onTrailers]
      split
      · assumption
      · rename_i hc
        obtain ⟨r, hr⟩ := trailersResult_isSome (z := z) (c := u.call) (by simpa using hc) hd
        rw [hr]
        exact (complete_flags _ r).1
  | close errorCode =>
      cases h
      simp only [after, ClientCallState.onStreamClose]
      -- a close after the trailers says nothing
      cases u.call.closeResult errorCode with
      | none => exact Or.inl rfl
      | some r => exact Or.inr (complete_flags _ r).1
  | expire =>
      obtain ⟨t, _, rfl⟩ := Option.map_eq_some_iff.1 h
      exact Or.inl rfl
  | timerHandler =>
      obtain ⟨t, _, rfl⟩ := Option.map_eq_some_iff.1 h
      exact Or.inl rfl
  | deadline =>
      cases h
      exact Or.inr (complete_flags _ _).1
  | cancel =>
      cases h
      exact Or.inr (complete_flags _ _).1
  | fail s =>
      cases h
      exact Or.inr (complete_flags _ _).1
  | runIoc i =>
      obtain ⟨r, _, rfl⟩ := Option.map_eq_some_iff.1 h
      exact Or.inl rfl

/-- What holds between two events of a unary call. -/
structure CompletionInvariant (u : UnaryCompletion) : Prop where
  once : u.gate.AtMostOnce
  trailers : u.call.trailersDone = true → u.call.completed = true

theorem completionInvariant_new (ctx : Option ClientContext) : CompletionInvariant (new ctx) :=
  ⟨Gate.initial_atMostOnce, fun h => by cases h⟩

/-- An event that does not end the call only delivers, or leaves the gate as it is. -/
theorem gateMove_of_none {z : Zlib} {u : UnaryCompletion} {e : UnaryEvent}
    (h : u.outcome z e = none) : u.gateMove z e = .stay ∨ ∃ i, u.gateMove z e = .deliver i := by
  simp only [gateMove]
  rw [h]
  cases e with
  | runIoc i => exact Or.inr ⟨i, rfl⟩
  | _ => exact Or.inl rfl

theorem gateMove_isClosing (z : Zlib) (u : UnaryCompletion) (e : UnaryEvent) :
    Gate.IsClosing (u.gateMove z e) := by
  simp only [gateMove]
  split
  · trivial
  · split <;> trivial

theorem completionInvariant_step {z : Zlib} {u u' : UnaryCompletion} {e : UnaryEvent}
    (hu : CompletionInvariant u) (h : step z u e = some u') : CompletionInvariant u' := by
  refine ⟨hu.once.move (gateMove_isClosing z u e) (step_gate h), fun ht => ?_⟩
  rcases step_trailersDone h with hd | hc
  · exact Gate.move_closed (step_gate h) (hu.trailers (hd ▸ ht))
  · exact hc

/-- A stream that has closed leaves the call completed. -/
theorem close_completes {z : Zlib} {u u' : UnaryCompletion} {errorCode : Nat}
    (hu : CompletionInvariant u) (h : step z u (.close errorCode) = some u') :
    u'.call.completed = true := by
  have hu' := completionInvariant_step hu h
  cases h
  simp only [after, ClientCallState.onStreamClose, ClientCallState.closeResult] at hu' ⊢
  by_cases hc : u.call.completed = true
  · simp only [if_pos hc]
    exact hc
  · by_cases ht : u.call.trailersDone = true
    · exact absurd (hu.trailers ht) hc
    · simp only [if_neg hc, if_neg ht]
      exact (complete_flags _ _).1

/-- The result of the first event of a run that ends the call. -/
def firstOutcome (z : Zlib) : UnaryCompletion → List UnaryEvent → Option UnaryResultRaw
  | _, [] => none
  | u, e :: es => (u.outcome z e).or ((step z u e).bind fun u' => firstOutcome z u' es)

/-- A decided call keeps its result. -/
theorem run_decided {z : Zlib} {u u' : UnaryCompletion} {es : List UnaryEvent}
    {r : UnaryResultRaw} (hu : u.gate.Decided r) (h : (machine z).run u es = some u') :
    u'.gate.Decided r :=
  Machine.run_invariant (M := machine z) (I := fun u => u.gate.Decided r)
    (fun _ _ _ hs hstep => hs.move (step_gate hstep)) es u u' hu h

/-- **The first event that ends the call decides its result.** -/
theorem run_firstOutcome {z : Zlib} :
    ∀ (es : List UnaryEvent) (u u' : UnaryCompletion), u.gate.AtMostOnce →
      u.call.completed = false → (machine z).run u es = some u' →
        u'.ioc ++ u'.invoked = (firstOutcome z u es).toList
  | [], u, u', hu, hopen, h => by
      cases h
      obtain ⟨hp, hq⟩ := hu.open_none hopen
      rw [show u.ioc = [] from hp, show u.invoked = [] from hq]
      rfl
  | e :: es, u, u', hu, hopen, h => by
      obtain ⟨v, hv, hrun⟩ := Machine.run_cons_some.1 h
      have hstep : step z u e = some v := hv
      have hmove := step_gate hstep
      cases ho : u.outcome z e with
      | some r =>
          have hm : u.gateMove z e = .post r := by
            simp only [gateMove]
            rw [ho]
          rw [hm] at hmove
          have hdec := run_decided (Gate.decided_post hopen hu hmove) hrun
          rw [firstOutcome, ho]
          exact hdec.outcome
      | none =>
          have hvopen : v.call.completed = false := by
            rcases gateMove_of_none (e := e) ho with hm | ⟨i, hm⟩
            · rw [hm] at hmove
              have hg : u.gate = v.gate := Option.some.inj hmove
              exact (congrArg Gate.closed hg).symm.trans hopen
            · rw [hm] at hmove
              obtain ⟨a, _, ha⟩ := Option.map_eq_some_iff.1 hmove
              exact (congrArg Gate.closed ha).symm.trans hopen
          have hvonce := hu.move (gateMove_isClosing z u e) (step_gate hstep)
          rw [run_firstOutcome es v u' hvonce hvopen hrun]
          simp [firstOutcome, ho, hstep]

/-- **A unary call completes at most once**, with the result of the first event that ends it;
processed trailers and a closed stream leave it completed. -/
theorem completion_once {z : Zlib} {ctx : Option ClientContext} {es : List UnaryEvent}
    {u : UnaryCompletion} (hrun : (machine z).run (new ctx) es = some u) :
    u.invoked.length ≤ 1 ∧ u.ioc ++ u.invoked = (firstOutcome z (new ctx) es).toList ∧
      (u.call.trailersDone = true → u.call.completed = true) ∧
      ((∃ errorCode, .close errorCode ∈ es) → u.call.completed = true) := by
  have hinv : ∀ es (v u : UnaryCompletion), CompletionInvariant v → (machine z).run v es = some u →
      CompletionInvariant u := Machine.run_invariant (M := machine z)
    (I := CompletionInvariant) fun _ _ _ hs hstep => completionInvariant_step hs hstep
  have hu := hinv es _ u (completionInvariant_new ctx) hrun
  refine ⟨?_, run_firstOutcome es _ u Gate.initial_atMostOnce rfl hrun, hu.trailers, ?_⟩
  · have hle := hu.once.le_one
    simp only [gate] at hle
    omega
  · rintro ⟨errorCode, hmem⟩
    obtain ⟨pre, post, rfl⟩ := List.append_of_mem hmem
    obtain ⟨v, hv, hrest⟩ := Machine.run_append.1 hrun
    obtain ⟨w, hw, hpost⟩ := Machine.run_cons_some.1 hrest
    have hc := close_completes (z := z) (hinv pre _ v (completionInvariant_new ctx) hv) hw
    exact Machine.run_invariant (M := machine z) (I := fun u => u.call.completed = true)
      (fun _ _ _ hs hstep => Gate.move_closed (step_gate hstep) hs) post w u hc hpost

end UnaryCompletion

end Rpcpio.Client
