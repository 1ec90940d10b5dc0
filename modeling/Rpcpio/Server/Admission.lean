import Rpcpio.Server.Listening

/-!
# Admission of requests against the collection

`HandleRequest` reads `shutdown_`, and tracks the call in a later step; `Shutdown` sets `shutdown_`,
and collects the tracked calls in a later step. A call that is created before the flag is set and
tracked after the collection is seen by neither: it escapes. `RegistryStep` is what a step does to
the requests and to `active_calls_`, and `Registered` the invariant (`no_call_escapes_iff`).
-/

set_option autoImplicit false

namespace Rpcpio.Server

open Rpcpio.Library Rpcpio.Protocol

namespace ServedRequest

/-- The call has been tracked. -/
def registered (r : ServedRequest) : Bool :=
  match r.step with
  | .tracked _ | .started _ => true
  | _ => false

/-- `HandleRequest` is between the creation of the call state and `TrackCall`. -/
def inWindow (r : ServedRequest) : Bool :=
  match r.step with
  | .created _ => true
  | _ => false

/-- What happens to a request, `TrackCall` apart. -/
inductive Change (impl : ServerImpl) (r : ServedRequest) : ServedRequest → Prop
  | check (h : r.step = .received) :
      Change impl r { r with step := (impl.handleRequest r.req).requestStep }
  | advance (call call' : AnyServerCall) (cancels : List Status)
      (h : r.step = .tracked call ∨ r.step = .started call)
      (hclosed : call.closed = true → call'.closed = true) :
      Change impl r { r with step := .started call', cancels := cancels }
  | expire (h : r.isTerminal = true) : Change impl r { r with expired := true }

end ServedRequest

/-- The call is in the window, or was tracked after the collection. -/
def ServedRequest.escaped (r : ServedRequest) : Bool := r.inWindow || r.late

/-- A changed request does not come into the window once `shutdown_` is set, and does not leave
it. -/
theorem ServedRequest.Change.escaped {impl : ServerImpl} {r r' : ServedRequest}
    (h : r.Change impl r') (himpl : impl.shutdown = true) : r'.escaped = r.escaped := by
  cases h with
  | check hr =>
      have hanswer : impl.handleRequest r.req =
          .answered 200 (buildTrailers serverShuttingDown [] []) := by
        simp [ServerImpl.handleRequest, himpl]
      simp [ServedRequest.escaped, inWindow, Handling.requestStep, hanswer, hr]
  | advance call call' cancels hr hclosed =>
      rcases hr with hr | hr <;> simp [ServedRequest.escaped, inWindow, hr]
  | expire hterm => rfl

/-- An update that keeps a predicate of the element keeps it for the list. -/
theorem any_set {l : List ServedRequest} {p : ServedRequest → Bool} {i : Nat}
    {r r' : ServedRequest} (hi : l[i]? = some r) (hp : p r' = p r) :
    (l.set i r').any p = l.any p := by
  induction l generalizing i with
  | nil => rfl
  | cons a l ih =>
      cases i with
      | zero =>
          rw [List.getElem?_cons_zero, Option.some.injEq] at hi
          subst hi
          simp only [List.set_cons_zero, List.any_cons, hp]
      | succ i =>
          rw [List.getElem?_cons_succ] at hi
          simp only [List.set_cons_succ, List.any_cons, ih hi]

theorem any_modify (l : List ServedRequest) {p : ServedRequest → Bool} (i : Nat)
    {f : ServedRequest → ServedRequest} (hp : ∀ r, p (f r) = p r) :
    (l.modify i f).any p = l.any p := by
  rw [List.modify_eq_set_getElem?]
  cases hi : l[i]? with
  | none => rfl
  | some r => exact any_set hi (hp r)

namespace ServerRun

/-- The collected calls that are still to be cancelled. -/
def todo (s : ServerRun) : List Nat :=
  match s.shutdownStep with
  | .cancelCalls calls => calls
  | _ => []

/-- **What a step does to the requests and to `active_calls_`.** -/
inductive RegistryStep (s : ServerRun) (e : ServerEvent) (s' : ServerRun) : Prop
  | quiet (hr : s'.requests = s.requests) (ha : s'.activeCalls = s.activeCalls)
      (hc : s'.calls = s.calls) (hcol : s'.Collected ↔ s.Collected) (htodo : s'.todo = s.todo)
  | collect (he : e = .shutdownNext) (hstep : s.shutdownStep = .collect) (h : s' = s.collect)
  | cancel (i : Nat) (rest : List Nat) (hstep : s.shutdownStep = .cancelCalls (i :: rest))
      (h : s' = { s.cancelCall i with shutdownStep := .cancelCalls rest })
  | finish (hposted : s.finishStep ≠ .notPosted) (hr : s'.requests = s.requests)
      (ha : s'.activeCalls = s.activeCalls.filter fun i => !s.isOver i)
      (hc : s'.calls = s.calls) (hs : s'.shutdownStep = s.shutdownStep)
  | add (req : IncomingRequest)
      (h : s' = { s with
        requests := s.requests ++ [⟨req, .received, false, [], false, false, false⟩] })
  | change (i : Nat) (r r' : ServedRequest) (hi : s.requests[i]? = some r)
      (hch : r.Change s.impl r') (h : s' = s.setRequest i r')
  | track (i : Nat) (r : ServedRequest) (call : AnyServerCall) (hi : s.requests[i]? = some r)
      (hstep : r.step = .created call)
      (h : s' = (s.trackCall i).setRequest i { r with step := .tracked call, late := s.Collected })

theorem registry_quiet {s s' : ServerRun} {e : ServerEvent} (hr : s'.requests = s.requests)
    (ha : s'.activeCalls = s.activeCalls) (hc : s'.calls = s.calls)
    (hs : s'.shutdownStep = s.shutdownStep) : RegistryStep s e s' := by
  refine .quiet hr ha hc ?_ ?_
  · rw [Collected, hs]
    exact Iff.rfl
  · rw [todo, hs]
    rfl

theorem registry_stopTransport (s : ServerRun) (p : StopStep) :
    (s.stopTransport p).1.requests = s.requests ∧
      (s.stopTransport p).1.activeCalls = s.activeCalls ∧
      (s.stopTransport p).1.calls = s.calls ∧
      (s.stopTransport p).1.shutdownStep = s.shutdownStep := by
  cases p <;> exact ⟨rfl, rfl, rfl, rfl⟩

theorem registry_finishShutdown {s t : ServerRun} {e : ServerEvent}
    (hposted : s.finishStep ≠ .notPosted)
    (hr : t.requests = s.requests) (ha : t.activeCalls = s.activeCalls) (hc : t.calls = s.calls)
    (hs : t.shutdownStep = s.shutdownStep) (deadline : Nat) :
    RegistryStep s e (t.finishShutdown deadline) := by
  have hover : ∀ i, t.isOver i = s.isOver i := by
    intro i
    simp only [isOver, hr]
  simp only [finishShutdown]
  split
  · exact .finish hposted hr (by simp [log, ha, hover]) hc hs
  · exact .finish hposted hr (by simp [ha, hover]) hc hs

theorem registry_stepCall {z : Zlib} {s s' : ServerRun} {e : ServerEvent} {i : Nat}
    {r r₀ : ServedRequest} {f : AnyServerCall → AnyServerCallEvent} (hi : s.requests[i]? = some r₀)
    (hr : r = { r₀ with cancels := r.cancels }) (h : s.stepCall z i r f = some s') :
    RegistryStep s e s' := by
  simp only [stepCall] at h
  split at h
  · rename_i call hcall
    obtain ⟨call', hcall', rfl⟩ := Option.map_eq_some_iff.1 h
    refine .change i r₀ _ hi (.advance call call' r.cancels ?_ ?_) ?_
    · right
      rw [hr] at hcall
      exact hcall
    · exact fun hclosed => AnyServerCall.closed_step hclosed hcall'
    · rw [hr]
  · cases h

theorem registry_requestNext {z : Zlib} {s s' : ServerRun} {e : ServerEvent} {i : Nat}
    {r : ServedRequest} (hi : s.requests[i]? = some r) (h : s.requestNext z i r = some s') :
    RegistryStep s e s' := by
  simp only [requestNext] at h
  split at h
  · rename_i hr
    cases h
    exact .change i r _ hi (.check hr) rfl
  · rename_i call hr
    cases h
    exact .track i r call hi hr rfl
  · rename_i call hr
    obtain ⟨call', hcall', rfl⟩ := Option.map_eq_some_iff.1 h
    refine .change i r _ hi (.advance call call' r.cancels (Or.inl hr) ?_) rfl
    exact fun hclosed => AnyServerCall.closed_step hclosed hcall'
  · cases h
  · cases h

theorem registry_shutdownNext {s s' : ServerRun} (h : s.shutdownNext = some s') :
    RegistryStep s .shutdownNext s' := by
  simp only [shutdownNext] at h
  split at h
  · cases h
  · rename_i hs
    cases h
    split <;> exact .quiet rfl rfl rfl (by simp [Collected, log, hs]) (by simp [todo, log, hs])
  · rename_i hs
    cases h
    exact .collect rfl hs rfl
  · rename_i hs
    cases h
    exact .quiet rfl rfl rfl (by simp [Collected, hs]) (by simp [todo, hs])
  · rename_i i rest hs
    cases h
    exact .cancel i rest hs rfl
  · rename_i hs
    split at h <;> cases h <;>
      exact .quiet rfl rfl rfl (by simp [Collected, hs]) (by simp [todo, hs])
  · rename_i hs
    split at h <;> cases h <;>
      exact .quiet rfl rfl rfl (by simp [Collected, log, hs]) (by simp [todo, log, hs])
  · rename_i p hs
    cases h
    obtain ⟨hr, ha, hc, _⟩ := s.registry_stopTransport p
    refine .quiet hr ha hc ?_ ?_
    · cases p <;> simp [Collected, stopTransport, hs]
    · cases p <;> simp [todo, stopTransport, hs]
  · rename_i hs
    cases h
    exact .quiet rfl rfl rfl (by simp [Collected, hs]) (by simp [todo, hs])
  · cases h

theorem step_registry {z : Zlib} {s s' : ServerRun} {e : ServerEvent} (hs : s.Flagged)
    (h : s.step z e = some s') : RegistryStep s e s' := by
  cases e with
  | start =>
      simp only [step, Option.some.injEq] at h
      split at h <;> subst h <;> exact registry_quiet rfl rfl rfl rfl
  | startNext =>
      simp only [step, startNext] at h
      split at h
      case h_8 p hs =>
        cases h
        obtain ⟨hr, ha, hc, hsh⟩ := s.registry_stopTransport p
        exact registry_quiet hr ha hc hsh
      all_goals cases h
      all_goals exact registry_quiet rfl rfl rfl rfl
  | startFail =>
      simp only [step, startFail] at h
      split at h
      all_goals cases h
      all_goals exact registry_quiet rfl rfl rfl rfl
  | shutdown =>
      simp only [step, Option.some.injEq] at h
      split at h
      · exact h ▸ registry_quiet rfl rfl rfl rfl
      · rename_i hnew
        subst h
        -- the flag is set before `active_calls_` is collected
        have hcalled := hs.shutdown.1 (by simpa using hnew)
        exact .quiet rfl rfl rfl (by simp [Collected, hcalled]) (by simp [todo, hcalled])
  | shutdownNext => exact registry_shutdownNext h
  | runPosted =>
      simp only [step, Option.ite_none_right_eq_some, Option.some.injEq] at h
      obtain ⟨hp, rfl⟩ := h
      exact registry_finishShutdown (by simp [hp]) rfl rfl rfl rfl _
  | timerExpire =>
      obtain ⟨t, _, rfl⟩ := Option.map_eq_some_iff.1 h
      exact registry_quiet rfl rfl rfl rfl
  | timerHandler =>
      simp only [step, Option.ite_none_right_eq_some] at h
      obtain ⟨hw, h⟩ := h
      obtain ⟨t, _, rfl⟩ := Option.map_eq_some_iff.1 h
      -- the handler runs while `FinishShutdown` waits
      have hposted : s.finishStep ≠ .notPosted := by simp [hw]
      exact registry_finishShutdown (t := { s with timer := t }) hposted rfl rfl rfl rfl _
  | timerAborted =>
      simp only [step, Option.ite_none_right_eq_some, Option.some.injEq] at h
      obtain ⟨_, rfl⟩ := h
      exact registry_quiet rfl rfl rfl rfl
  | finishNext =>
      simp only [step] at h
      split at h
      · rename_i p _
        cases h
        obtain ⟨hr, ha, hc, hsh⟩ := s.registry_stopTransport p
        exact registry_quiet hr ha hc hsh
      · cases h
  | tick =>
      cases h
      exact registry_quiet rfl rfl rfl rfl
  | request req =>
      simp only [step, Option.ite_none_right_eq_some, Option.some.injEq] at h
      obtain ⟨_, rfl⟩ := h
      exact .add req rfl
  | requestNext i =>
      obtain ⟨r, hi, h⟩ := Option.bind_eq_some_iff.1 h
      exact registry_requestNext hi h
  | callEvent i e =>
      simp only [step, Option.ite_none_right_eq_some] at h
      obtain ⟨r, hi, h⟩ := Option.bind_eq_some_iff.1 h.2
      exact registry_stepCall hi rfl h
  | runCancel i slot =>
      obtain ⟨r, hi, h⟩ := Option.bind_eq_some_iff.1 h
      split at h
      · cases h
      · exact registry_stepCall hi rfl h
  | expireCall i =>
      obtain ⟨r, hi, h⟩ := Option.bind_eq_some_iff.1 h
      simp only [Option.ite_none_right_eq_some, Option.some.injEq] at h
      obtain ⟨hterm, rfl⟩ := h
      exact .change i r _ hi (.expire hterm) rfl

/-! ## The invariant -/

/-- A call state that was just created is not terminal. -/
theorem requestStep_fresh {impl : ServerImpl} {req : IncomingRequest} {call : AnyServerCall}
    (h : (impl.handleRequest req).requestStep = .created call) : call.closed = false := by
  simp only [ServerImpl.handleRequest] at h
  repeat' split at h
  all_goals first
    | cases h
      rfl
    | cases h

/-- What holds of a request with index `i`: a call that was not tracked before the collection is
neither cancelled by `Shutdown` nor was it terminal then, and any other is one of the two, or next
in the loop of `Shutdown`. After the collection `active_calls_` holds the calls that were tracked
since. -/
structure Admitted (s : ServerRun) (i : Nat) (r : ServedRequest) : Prop where
  fresh : ∀ call, r.step = .created call → call.closed = false
  expired : r.expired = true → r.isTerminal = true
  before : ¬ s.Collected → r.late = false ∧ r.cancelled = false ∧ r.ended = false ∧
    (r.registered = true → r.expired = true ∨ i ∈ s.activeCalls)
  after : s.Collected → r.registered = true →
    r.late = true ∨ r.ended = true ∨ r.cancelled = true ∨ i ∈ s.todo
  escaped : r.registered = false ∨ r.late = true →
    r.cancelled = false ∧ r.ended = false ∧ i ∉ s.todo
  active : i ∈ s.activeCalls → r.registered = true ∧ (s.Collected → r.late = true)
  alive : s.Collected → r.late = true → r.isTerminal = true ∨ i ∈ s.activeCalls
  tracked : r.late = true → r.registered = true

/-- The invariant of the requests. -/
structure Registered (s : ServerRun) : Prop where
  flagged : s.Flagged
  posted : s.finishStep ≠ .notPosted → s.shutdownStep = .returned
  range : ∀ i, i ∈ s.activeCalls ∨ i ∈ s.todo → i < s.requests.length
  admitted : ∀ i r, s.requests[i]? = some r → s.Admitted i r

theorem registered_new (impl : ServerImpl) (gracePeriod numThreads : Nat) (iocStopped : Bool) :
    (new impl gracePeriod numThreads iocStopped).Registered := by
  refine ⟨flagged_new _ _ _ _, fun h => absurd rfl h, ?_, fun i r h => by simp [new] at h⟩
  rintro i (h | h) <;> cases h

/-- A request that the step leaves alone, on a server whose lists it leaves alone. -/
theorem Admitted.congr {s s' : ServerRun} {i : Nat} {r : ServedRequest} (h : s.Admitted i r)
    (ha : s'.activeCalls = s.activeCalls) (hcol : s'.Collected ↔ s.Collected)
    (htodo : s'.todo = s.todo) : s'.Admitted i r := by
  constructor
  case fresh => exact h.fresh
  case expired => exact h.expired
  case before =>
    rw [hcol, ha]
    exact h.before
  case after =>
    rw [hcol, htodo]
    exact h.after
  case escaped =>
    rw [htodo]
    exact h.escaped
  case active =>
    rw [ha, hcol]
    exact h.active
  case alive =>
    rw [ha, hcol]
    exact h.alive
  case tracked => exact h.tracked

/-- A request that has just arrived. -/
theorem admitted_add {s : ServerRun} (hs : s.Registered) (req : IncomingRequest) :
    s.Admitted s.requests.length ⟨req, .received, false, [], false, false, false⟩ := by
  have hout : ∀ i, i ∈ s.activeCalls ∨ i ∈ s.todo → i ≠ s.requests.length :=
    fun i hi heq => absurd (hs.range i hi) (by omega)
  constructor
  case fresh =>
    intro call h
    cases h
  case expired =>
    intro h
    cases h
  case before => exact fun _ => ⟨rfl, rfl, rfl, fun h => by cases h⟩
  case after =>
    intro _ h
    cases h
  case escaped => exact fun _ => ⟨rfl, rfl, fun h => hout _ (Or.inr h) rfl⟩
  case active => exact fun h => absurd rfl (hout _ (Or.inl h))
  case alive =>
    intro _ h
    cases h
  case tracked =>
    intro h
    cases h

/-- The request that a step changes. -/
theorem admitted_change {s : ServerRun} {i : Nat} {r r' : ServedRequest} (h : s.Admitted i r)
    (hch : r.Change s.impl r') : s.Admitted i r' := by
  cases hch with
  | check hr =>
      -- before the registration nothing in the registry speaks of the request
      have hreg : r.registered = false := by simp [ServedRequest.registered, hr]
      have hterm : r.isTerminal = false := by simp [ServedRequest.isTerminal, RequestStep.call?, hr]
      have hnew : ∀ h : Handling, ({ r with step := h.requestStep }).registered = false := by
        intro h
        cases h <;> rfl
      have hactive : i ∉ s.activeCalls := by
        intro hi
        rw [(h.active hi).1] at hreg
        cases hreg
      constructor
      case fresh => exact fun call hcall => requestStep_fresh hcall
      case expired =>
        intro he
        rw [h.expired he] at hterm
        cases hterm
      case before =>
        intro hcol
        obtain ⟨hl, hc, he, _⟩ := h.before hcol
        exact ⟨hl, hc, he, fun h => absurd (h.symm.trans (hnew _)) (by simp)⟩
      case after => exact fun _ h => absurd (h.symm.trans (hnew _)) (by simp)
      case escaped => exact fun _ => h.escaped (Or.inl hreg)
      case active => exact fun hi => absurd hi hactive
      case alive =>
        intro hcol hlate
        rcases h.alive hcol hlate with hterm' | hi
        · rw [hterm] at hterm'
          cases hterm'
        · exact absurd hi hactive
      case tracked =>
        intro hlate
        rw [h.tracked hlate] at hreg
        cases hreg
  | advance call call' cancels hr hclosed =>
      -- a registered call stays registered, and one that was terminal stays so
      have hreg : r.registered = true := by
        rcases hr with hr | hr <;> simp [ServedRequest.registered, hr]
      have hterm : r.isTerminal = true → call'.closed = true := by
        intro h
        apply hclosed
        rcases hr with hr | hr <;> simpa [ServedRequest.isTerminal, RequestStep.call?, hr] using h
      constructor
      case fresh =>
        intro call hcall
        cases hcall
      case expired => exact fun he => hterm (h.expired he)
      case before =>
        intro hcol
        obtain ⟨hl, hc, he, hact⟩ := h.before hcol
        exact ⟨hl, hc, he, fun _ => hact hreg⟩
      case after => exact fun hcol _ => h.after hcol hreg
      case escaped =>
        rintro (hnone | hlate)
        · cases hnone
        · exact h.escaped (Or.inr hlate)
      case active => exact fun hi => ⟨rfl, (h.active hi).2⟩
      case alive => exact fun hcol hlate => (h.alive hcol hlate).imp_left hterm
      case tracked => exact fun _ => rfl
  | expire hterm =>
      constructor
      case fresh => exact h.fresh
      case expired => exact fun _ => hterm
      case before =>
        intro hcol
        -- an expired call need not be in `active_calls_` any more
        obtain ⟨hl, hc, he, _⟩ := h.before hcol
        exact ⟨hl, hc, he, fun _ => Or.inl rfl⟩
      case after => exact h.after
      case escaped => exact h.escaped
      case active => exact h.active
      case alive => exact h.alive
      case tracked => exact h.tracked

/-- The collection: a tracked call is next in the loop, or it was terminal. -/
theorem admitted_collect {s : ServerRun} (hstep : s.shutdownStep = .collect) {i : Nat}
    {r : ServedRequest} (hi : s.requests[i]? = some r) (h : s.Admitted i r) :
    s.collect.Admitted i { r with ended := r.isTerminal } := by
  have hcol : ¬ s.Collected := by simp [Collected, hstep]
  have hcol' : s.collect.Collected := by simp [Collected, collect]
  obtain ⟨hlate, hcancelled, _, hact⟩ := h.before hcol
  constructor
  case fresh => exact h.fresh
  case expired => exact h.expired
  case before => exact fun hno => absurd hcol' hno
  case after =>
    intro _ hreg
    -- a registered call has expired, and is terminal, or it is among those collected
    rcases hact hreg with he | hi'
    · exact Or.inr (Or.inl (h.expired he))
    · by_cases he : r.expired = true
      · exact Or.inr (Or.inl (h.expired he))
      · right
        right
        right
        simp only [todo, collect, List.mem_filter]
        exact ⟨hi', by simp [isExpired, hi, he]⟩
  case escaped =>
    rintro (hreg | hl)
    · refine ⟨hcancelled, ?_, ?_⟩
      · -- a call that is not tracked yet is open
        simp only [ServedRequest.isTerminal]
        cases hr : r.step with
        | received => rfl
        | answered statusCode headers => rfl
        | created call => exact h.fresh call hr
        | tracked call => simp [ServedRequest.registered, hr] at hreg
        | started call => simp [ServedRequest.registered, hr] at hreg
      · intro hmem
        simp only [todo, collect, List.mem_filter] at hmem
        have hr : r.registered = true := (h.active hmem.1).1
        rw [show r.registered = false from hreg] at hr
        cases hr
    · rw [show r.late = true from hl] at hlate
      cases hlate
  case active =>
    intro hi'
    cases hi'
  case alive =>
    intro _ hl
    rw [show r.late = true from hl] at hlate
    cases hlate
  case tracked => exact h.tracked

/-- The loop of `Shutdown` cancels the call `j`. -/
theorem admitted_cancel {s : ServerRun} {j : Nat} {rest : List Nat}
    (hstep : s.shutdownStep = .cancelCalls (j :: rest)) {i : Nat} {r : ServedRequest}
    (h : s.Admitted i r) :
    ({ s.cancelCall j with shutdownStep := .cancelCalls rest }).Admitted i
      (if j = i then { r with cancels := r.cancels ++ [serverShuttingDown], cancelled := true }
        else r) := by
  have hcol : s.Collected := by simp [Collected, hstep]
  have hcol' : ({ s.cancelCall j with shutdownStep := .cancelCalls rest }).Collected := by
    simp [Collected]
  have htodo : s.todo = j :: rest := by simp [todo, hstep]
  by_cases hj : j = i
  · subst hj
    rw [if_pos rfl]
    constructor
    case fresh => exact h.fresh
    case expired => exact h.expired
    case before => exact fun hno => absurd hcol' hno
    case after => exact fun _ _ => Or.inr (Or.inr (Or.inl rfl))
    case escaped =>
      -- a call that escaped is not in the loop
      intro hesc
      have hout := (h.escaped hesc).2.2
      rw [htodo] at hout
      exact absurd List.mem_cons_self hout
    case active => exact fun hi => ⟨(h.active hi).1, fun _ => (h.active hi).2 hcol⟩
    case alive => exact fun _ => h.alive hcol
    case tracked => exact h.tracked
  · rw [if_neg hj]
    constructor
    case fresh => exact h.fresh
    case expired => exact h.expired
    case before => exact fun hno => absurd hcol' hno
    case after =>
      intro _ hreg
      -- the loop goes on to the calls behind `j`
      refine (h.after hcol hreg).imp_right (Or.imp_right (Or.imp_right fun hmem => ?_))
      rw [htodo] at hmem
      exact (List.mem_cons.1 hmem).resolve_left fun heq => hj heq.symm
    case escaped =>
      intro hesc
      obtain ⟨hc, he, hout⟩ := h.escaped hesc
      rw [htodo] at hout
      exact ⟨hc, he, fun hmem => hout (List.mem_cons_of_mem _ hmem)⟩
    case active => exact fun hi => ⟨(h.active hi).1, fun _ => (h.active hi).2 hcol⟩
    case alive => exact fun _ => h.alive hcol
    case tracked => exact h.tracked

/-- `FinishShutdown` drops the calls that are over, after the collection. -/
theorem admitted_finish {s s' : ServerRun} (hcol : s.Collected)
    (ha : s'.activeCalls = s.activeCalls.filter fun i => !s.isOver i)
    (hs : s'.shutdownStep = s.shutdownStep) {i : Nat} {r : ServedRequest}
    (hi : s.requests[i]? = some r) (h : s.Admitted i r) : s'.Admitted i r := by
  have hcol' : s'.Collected ↔ s.Collected := by
    rw [Collected, hs]
    exact Iff.rfl
  have htodo : s'.todo = s.todo := by
    rw [todo, hs]
    rfl
  constructor
  case fresh => exact h.fresh
  case expired => exact h.expired
  case before => exact fun hno => absurd (hcol'.2 hcol) hno
  case after =>
    rw [hcol', htodo]
    exact h.after
  case escaped =>
    rw [htodo]
    exact h.escaped
  case active =>
    rw [ha, hcol', List.mem_filter]
    exact fun hmem => h.active hmem.1
  case alive =>
    intro _ hlate
    -- only calls that are over leave `active_calls_`
    by_cases hterm : r.isTerminal = true
    · exact Or.inl hterm
    · right
      have hmem := (h.alive hcol hlate).resolve_left hterm
      have hlive : r.expired = false := by
        cases he : r.expired with
        | false => rfl
        | true => exact absurd (h.expired he) hterm
      rw [ha, List.mem_filter]
      exact ⟨hmem, by simp [isOver, hi, hterm, hlive]⟩
  case tracked => exact h.tracked

/-- `TrackCall` of the call `j`. -/
theorem admitted_track {s : ServerRun} {j : Nat} {r₀ : ServedRequest} {call : AnyServerCall}
    (hr₀ : s.requests[j]? = some r₀) (hstep : r₀.step = .created call) {i : Nat}
    {r : ServedRequest} (hi : s.requests[i]? = some r) (h : s.Admitted i r) :
    ((s.trackCall j).setRequest j { r₀ with step := .tracked call, late := s.Collected }).Admitted i
      (if j = i then { r₀ with step := .tracked call, late := s.Collected } else r) := by
  have hmem : ∀ k, k ∈ (s.trackCall j).activeCalls ↔
      (k ∈ s.activeCalls ∧ s.isExpired k = false) ∨ k = j := by
    intro k
    simp [trackCall]
  -- the request that is tracked, and any other
  by_cases hj : j = i
  · subst hj
    rw [hr₀, Option.some.injEq] at hi
    subst hi
    rw [if_pos rfl]
    have hreg : r₀.registered = false := by simp [ServedRequest.registered, hstep]
    obtain ⟨hcancelled, hended, hout⟩ := h.escaped (Or.inl hreg)
    have hterm : call.closed = false := h.fresh call hstep
    constructor
    case fresh =>
      intro call hcall
      cases hcall
    case expired =>
      intro he
      have hold := h.expired he
      simp only [ServedRequest.isTerminal, RequestStep.call?, hstep, hterm] at hold
      cases hold
    case before =>
      intro hcol
      exact ⟨decide_eq_false hcol, hcancelled, hended, fun _ => Or.inr ((hmem j).2 (Or.inr rfl))⟩
    case after => exact fun hcol _ => Or.inl (decide_eq_true hcol)
    case escaped => exact fun _ => ⟨hcancelled, hended, hout⟩
    case active => exact fun _ => ⟨rfl, fun hcol => decide_eq_true hcol⟩
    case alive => exact fun _ _ => Or.inr ((hmem j).2 (Or.inr rfl))
    case tracked => exact fun _ => rfl
  · rw [if_neg hj]
    constructor
    case fresh => exact h.fresh
    case expired => exact h.expired
    case before =>
      intro hcol
      -- only expired calls are swept out of `active_calls_`
      obtain ⟨hl, hc, he, hact⟩ := h.before hcol
      refine ⟨hl, hc, he, fun hreg => ?_⟩
      by_cases hexp : r.expired = true
      · exact Or.inl hexp
      · right
        refine (hmem i).2 (Or.inl ⟨(hact hreg).resolve_left hexp, ?_⟩)
        simpa [isExpired, hi] using hexp
    case after => exact h.after
    case escaped => exact h.escaped
    case active =>
      intro hin
      rcases (hmem i).1 hin with ⟨hold, _⟩ | heq
      · exact h.active hold
      · exact absurd heq.symm hj
    case alive =>
      intro hcol hlate
      by_cases hexp : r.expired = true
      · exact Or.inl (h.expired hexp)
      · refine (h.alive hcol hlate).imp_right fun hold => (hmem i).2 (Or.inl ⟨hold, ?_⟩)
        simpa [isExpired, hi] using hexp
    case tracked => exact h.tracked

/-- **What a step does keeps the invariant of every request.** -/
theorem admitted_step {s s' : ServerRun} {e : ServerEvent} (hs : s.Registered)
    (h : RegistryStep s e s') :
    ∀ i r, s'.requests[i]? = some r → s'.Admitted i r := by
  intro i r hi
  cases h with
  | quiet hr ha hc hcol htodo =>
      rw [hr] at hi
      exact (hs.admitted i r hi).congr ha hcol htodo
  | collect he hstep h =>
      subst h
      simp only [collect, List.getElem?_map, Option.map_eq_some_iff] at hi
      obtain ⟨r₀, hr₀, rfl⟩ := hi
      exact admitted_collect hstep hr₀ (hs.admitted i r₀ hr₀)
  | cancel j rest hstep h =>
      subst h
      simp only [cancelCall, List.getElem?_modify, Option.map_eq_map, Option.map_eq_some_iff] at hi
      obtain ⟨r₀, hr₀, rfl⟩ := hi
      exact admitted_cancel hstep (hs.admitted i r₀ hr₀)
  | finish hposted hr ha hc hsh =>
      rw [hr] at hi
      have hcol : s.Collected := by simp [Collected, hs.posted hposted]
      exact admitted_finish hcol ha hsh hi (hs.admitted i r hi)
  | add req h =>
      subst h
      -- a request that was there before, or the one that comes in
      simp only [List.getElem?_append] at hi
      split at hi
      · exact (hs.admitted i r hi).congr rfl Iff.rfl rfl
      · rename_i hlt
        simp only [List.getElem?_singleton, Option.ite_none_right_eq_some, Option.some.injEq] at hi
        obtain ⟨hzero, rfl⟩ := hi
        have hidx : i = s.requests.length := by omega
        subst hidx
        exact (admitted_add hs req).congr rfl Iff.rfl rfl
  | change j r₀ r' hj hch h =>
      subst h
      -- the request that changes, or another one
      simp only [setRequest, List.getElem?_set] at hi
      split at hi
      · rename_i hij
        subst hij
        simp only [Option.ite_none_right_eq_some, Option.some.injEq] at hi
        obtain ⟨_, rfl⟩ := hi
        exact (admitted_change (hs.admitted j r₀ hj) hch).congr rfl Iff.rfl rfl
      · exact (hs.admitted i r hi).congr rfl Iff.rfl rfl
  | track j r₀ call hj hstep h =>
      subst h
      have htracked := fun r hi => admitted_track hj hstep hi (hs.admitted i r hi)
      simp only [setRequest, trackCall, List.getElem?_set] at hi
      split at hi
      · rename_i hij
        subst hij
        simp only [Option.ite_none_right_eq_some, Option.some.injEq] at hi
        obtain ⟨_, rfl⟩ := hi
        have h := htracked r₀ hj
        rw [if_pos rfl] at h
        exact h
      · rename_i hij
        have h := htracked r hi
        rw [if_neg hij] at h
        exact h

/-- `FinishShutdown` is posted by the last step of `Shutdown`. -/
theorem posted_move {c c' : Control} {n : Nat} {b : Bool} {e : ServerEvent}
    (hc : c.finishStep ≠ .notPosted → c.shutdownStep = .returned) (h : c.Move n b e c')
    (hf : c'.finishStep ≠ .notPosted) : c'.shutdownStep = .returned := by
  cases h with
  | post h => rfl
  | idle h _ => rfl
  | cleanup p h => cases p <;> exact hc hf
  | finishStop p h => cases p <;> exact hc (by simp [h])
  | finish e timer h => exact hc (by rcases h with h | ⟨h, _⟩ <;> simp [h])
  | finishWait e h => exact hc (by rcases h with h | ⟨h, _⟩ <;> simp [h])
  | aborted h _ => exact hc (by simp [h])
  | shutdownStop p h =>
      have hreturned := hc (by cases p <;> exact hf)
      rw [h] at hreturned
      cases hreturned
  | shutdown h | stopListening h | collect _ h | cancelCall _ _ h | cancelled h | listens h _
  | stopped h _ | running h _ =>
      have hreturned := hc hf
      rw [h] at hreturned
      cases hreturned
  | _ => exact hc hf

/-- The lists name requests that have arrived. -/
theorem range_step {s s' : ServerRun} {e : ServerEvent} (hs : s.Registered)
    (h : RegistryStep s e s') :
    ∀ i, i ∈ s'.activeCalls ∨ i ∈ s'.todo → i < s'.requests.length := by
  intro i hi
  cases h with
  | quiet hr ha hc hcol htodo =>
      rw [hr]
      rw [ha, htodo] at hi
      exact hs.range i hi
  | collect he hstep h =>
      subst h
      -- the calls to cancel come from `active_calls_`
      simp only [collect, todo, List.not_mem_nil, List.mem_filter, false_or] at hi
      simpa [collect] using hs.range i (Or.inl hi.1)
  | cancel j rest hstep h =>
      subst h
      have hlen := hs.range i (hi.imp_right fun hmem => by
        simpa [todo, hstep] using Or.inr hmem)
      simpa [cancelCall] using hlen
  | finish hposted hr ha hc hsh =>
      rw [hr]
      rw [ha] at hi
      refine hs.range i (hi.imp (fun hmem => (List.mem_filter.1 hmem).1) fun hmem => ?_)
      rwa [todo, hsh] at hmem
  | add req h =>
      subst h
      have hlen := hs.range i hi
      simp only [List.length_append, List.length_singleton]
      omega
  | change j r₀ r' hj hch h =>
      subst h
      simpa [setRequest] using hs.range i hi
  | track j r₀ call hj hstep h =>
      subst h
      simp only [setRequest, trackCall, List.length_set]
      rcases hi with hi | hi
      · simp only [setRequest, trackCall, List.mem_append, List.mem_filter,
          List.mem_singleton] at hi
        -- an index that was there, or that of the call which is tracked now
        rcases hi with ⟨hi, _⟩ | rfl
        · exact hs.range i (Or.inl hi)
        · exact (List.getElem?_eq_some_iff.1 hj).1
      · exact hs.range i (Or.inr hi)

theorem registered_step {z : Zlib} {s s' : ServerRun} {e : ServerEvent} (hs : s.Registered)
    (h : s.step z e = some s') : s'.Registered := by
  have hstep := step_registry hs.flagged h
  exact ⟨flagged_step hs.flagged h, posted_move hs.posted (step_control hs.flagged h),
    range_step hs hstep, admitted_step hs hstep⟩

/-! ## Escaped calls -/

/-- Some call is, once collected, seen neither by the check of `shutdown_` nor by the collection. -/
def escapes (s : ServerRun) : Bool := s.requests.any ServedRequest.escaped

/-- After the collection it stays so. -/
theorem collected_step {s s' : ServerRun} {e : ServerEvent} (hcol : s.Collected)
    (h : RegistryStep s e s') : s'.Collected := by
  cases h with
  | quiet _ _ _ hcol' _ => exact hcol'.2 hcol
  | collect he hstep h => simp [Collected, hstep] at hcol
  | cancel j rest hstep h => simp [h, Collected]
  | finish hposted hr ha hc hsh =>
      rw [Collected, hsh]
      exact hcol
  | add req h => exact h ▸ hcol
  | change j r r' hj hch h => exact h ▸ hcol
  | track j r call hj hstep h => exact h ▸ hcol

/-- **After the collection it is settled whether calls escape.** -/
theorem escapes_step {s s' : ServerRun} {e : ServerEvent} (hs : s.Registered)
    (hcol : s.Collected) (h : RegistryStep s e s') : s'.escapes = s.escapes := by
  have himpl : s.impl.shutdown = true := by
    cases hsh : s.impl.shutdown with
    | true => rfl
    | false => exact absurd (hs.flagged.shutdown.1 hsh) hcol.1
  cases h with
  | quiet hr ha hc hcol' htodo => rw [escapes, hr, escapes]
  | collect he hstep h => simp [Collected, hstep] at hcol
  | cancel j rest hstep h =>
      subst h
      exact any_modify s.requests j fun r => rfl
  | finish hposted hr ha hc hsh => rw [escapes, hr, escapes]
  | add req h =>
      subst h
      simp [escapes, ServedRequest.escaped, ServedRequest.inWindow]
  | change j r r' hj hch h =>
      subst h
      exact any_set hj (hch.escaped himpl)
  | track j r call hj hstep h =>
      subst h
      apply any_set hj
      simp [ServedRequest.escaped, ServedRequest.inWindow, hstep, hcol]

/-- The condition on a step: when `Shutdown` collects the calls, no request is between the check of
`shutdown_` and `TrackCall`. -/
def NoneInWindow (s : ServerRun) (e : ServerEvent) : Prop :=
  e = .shutdownNext → s.shutdownStep = .collect → ∀ r ∈ s.requests, r.inWindow = false

instance (s : ServerRun) (e : ServerEvent) : Decidable (s.NoneInWindow e) :=
  inferInstanceAs (Decidable (_ → _ → _))

/-- The collection decides whether calls escape. -/
theorem escapes_collect {s : ServerRun} (hs : s.Registered) (hstep : s.shutdownStep = .collect) :
    s.collect.escapes = false ↔ ∀ r ∈ s.requests, r.inWindow = false := by
  have hcol : ¬ s.Collected := by simp [Collected, hstep]
  simp only [escapes, collect, List.any_map, List.any_eq_false, Function.comp_apply]
  constructor
  · intro h r hr
    have hno := h r hr
    simp only [ServedRequest.escaped, Bool.or_eq_true, not_or] at hno
    exact Bool.eq_false_iff.2 hno.1
  · intro h r hr
    obtain ⟨i, hi⟩ := List.mem_iff_getElem?.1 hr
    have hlate := ((hs.admitted i r hi).before hcol).1
    have hwindow := h r hr
    simp only [ServedRequest.inWindow] at hwindow
    simp [ServedRequest.escaped, ServedRequest.inWindow, hwindow, hlate]

/-- Without a call in the window no call escapes. -/
theorem no_escape_step {z : Zlib} {s s' : ServerRun} {e : ServerEvent} (hs : s.Registered)
    (hesc : s.Collected → s.escapes = false) (hgood : s.NoneInWindow e)
    (h : s.step z e = some s') (hcol' : s'.Collected) : s'.escapes = false := by
  have hstep := step_registry hs.flagged h
  by_cases hcol : s.Collected
  · exact (escapes_step hs hcol hstep).trans (hesc hcol)
  · cases hstep with
    | quiet hr ha hc hiff htodo => exact absurd (hiff.1 hcol') hcol
    | collect he hstep h =>
        subst h
        exact (escapes_collect hs hstep).2 (hgood he hstep)
    | cancel j rest hstep h => exact absurd (by simp [Collected, hstep]) hcol
    | finish hposted hr ha hc hsh =>
        rw [Collected, hsh] at hcol'
        exact absurd hcol' hcol
    | add req h =>
        subst h
        exact absurd hcol' hcol
    | change j r r' hj hch h =>
        subst h
        exact absurd hcol' hcol
    | track j r call hj hstep h =>
        subst h
        exact absurd hcol' hcol

/-- **A request escapes exactly if it was in the window when `Shutdown` collected the calls.** -/
theorem escapes_iff {z : Zlib} {s s' : ServerRun} {es : List ServerEvent} (hs : s.Registered)
    (hnew : ¬ s.Collected) (hrun : (machine z).run s es = some s') (hcol : s'.Collected) :
    s'.escapes = false ↔ (machine z).Along NoneInWindow s es := by
  constructor
  · intro hesc
    apply Machine.along_of_forall
    intro pre e post t hes hpre he hstep
    subst he hes
    obtain ⟨v, hv, hrest⟩ := Machine.run_append.1 hrun
    rw [hpre, Option.some.injEq] at hv
    subst hv
    obtain ⟨t', hnext, hpost⟩ := Machine.run_cons_some.1 hrest
    have ht' : t.step z .shutdownNext = some t' := hnext
    have ht := Machine.run_invariant (fun _ _ _ => registered_step) pre s t hs hpre
    have hcollect : t' = t.collect := by
      simp only [step, shutdownNext, hstep, Option.some.injEq] at ht'
      exact ht'.symm
    have hinv := Machine.run_invariant (M := machine z)
      (I := fun u => u.Registered ∧ u.Collected ∧ u.escapes = t'.escapes)
      (fun u e u' hu hst => by
        have hreg := step_registry hu.1.flagged hst
        exact ⟨registered_step hu.1 hst, collected_step hu.2.1 hreg,
          (escapes_step hu.1 hu.2.1 hreg).trans hu.2.2⟩)
      post t' s' ⟨registered_step ht ht', by simp [hcollect, collect, Collected], rfl⟩ hpost
    apply (escapes_collect ht hstep).1
    rw [← hcollect, ← hinv.2.2]
    exact hesc
  · intro halong
    have hinv := Machine.run_invariant_along (M := machine z)
      (I := fun u => u.Registered ∧ (u.Collected → u.escapes = false))
      (fun u e u' hu hgood hst =>
        ⟨registered_step hu.1 hst, no_escape_step hu.1 hu.2 hgood hst⟩)
      es s s' ⟨hs, fun h => absurd h hnew⟩ halong hrun
    exact hinv.2 hcol

/-! ## What requests are answered -/

end ServerRun

/-- An answer of `HandleRequest` is UNAVAILABLE, or what this request gets from any server with
these handlers. -/
def ServedRequest.AnsweredBy (impl : ServerImpl) (r : ServedRequest) : Prop :=
  ∀ statusCode headers, r.step = .answered statusCode headers →
    (statusCode = 200 ∧ headers = buildTrailers serverShuttingDown [] []) ∨
      { impl with shutdown := false }.handleRequest r.req = .answered statusCode headers

namespace ServerRun

/-- The answers given so far. -/
structure Answers (impl : ServerImpl) (s : ServerRun) : Prop where
  handlers : { s.impl with shutdown := false } = { impl with shutdown := false }
  answered : ∀ (i : Nat) (r : ServedRequest), s.requests[i]? = some r → r.AnsweredBy impl

theorem answeredBy_change {impl impl' : ServerImpl} {r r' : ServedRequest}
    (himpl : { impl' with shutdown := false } = { impl with shutdown := false })
    (h : r.AnsweredBy impl) (hch : r.Change impl' r') : r'.AnsweredBy impl := by
  cases hch with
  | check hr =>
      intro statusCode headers hstep
      cases hs : impl'.shutdown with
      | true =>
          left
          simp only [ServerImpl.handleRequest, hs, if_true, Handling.requestStep,
            RequestStep.answered.injEq] at hstep
          exact ⟨hstep.1.symm, hstep.2.symm⟩
      | false =>
          right
          have hsame : impl' = { impl with shutdown := false } := by
            rw [← himpl, ← hs]
          rw [← hsame]
          cases hh : impl'.handleRequest r.req with
          | answered c hd =>
              simp only [hh, Handling.requestStep, RequestStep.answered.injEq] at hstep
              rw [hstep.1, hstep.2]
          | _ => simp [hh, Handling.requestStep] at hstep
  | advance call call' cancels hr hclosed =>
      intro statusCode headers hstep
      cases hstep
  | expire hterm => exact h

theorem answers_step {z : Zlib} {impl : ServerImpl} {s s' : ServerRun} {e : ServerEvent}
    (hs : s.Registered) (ha : s.Answers impl) (h : s.step z e = some s') : s'.Answers impl := by
  have himpl : { s'.impl with shutdown := false } = { s.impl with shutdown := false } := by
    by_cases he : e = .shutdown
    · subst he
      simp only [step, Option.some.injEq] at h
      split at h <;> subst h <;> rfl
    · rw [(step_keeps h).impl he]
  refine ⟨himpl.trans ha.handlers, fun i r hi => ?_⟩
  cases step_registry hs.flagged h with
  | quiet hr _ _ _ _ => exact ha.answered i r (hr ▸ hi)
  | collect he hstep h =>
      subst h
      simp only [collect, List.getElem?_map, Option.map_eq_some_iff] at hi
      obtain ⟨r₀, hr₀, rfl⟩ := hi
      exact ha.answered i r₀ hr₀
  | cancel j rest hstep h =>
      subst h
      simp only [cancelCall, List.getElem?_modify, Option.map_eq_map, Option.map_eq_some_iff] at hi
      obtain ⟨r₀, hr₀, rfl⟩ := hi
      split <;> exact ha.answered i r₀ hr₀
  | finish hposted hr _ _ _ => exact ha.answered i r (hr ▸ hi)
  | add req h =>
      subst h
      -- a request that comes in has no answer to compare
      simp only [List.getElem?_append] at hi
      split at hi
      · exact ha.answered i r hi
      · simp only [List.getElem?_singleton, Option.ite_none_right_eq_some, Option.some.injEq] at hi
        obtain ⟨_, rfl⟩ := hi
        intro statusCode headers hstep
        cases hstep
  | change j r₀ r' hj hch h =>
      subst h
      simp only [setRequest, List.getElem?_set] at hi
      split at hi
      · simp only [Option.ite_none_right_eq_some, Option.some.injEq] at hi
        obtain ⟨_, rfl⟩ := hi
        -- only the check in the handler of the request writes an answer
        exact answeredBy_change ha.handlers (ha.answered j r₀ hj) hch
      · exact ha.answered i r hi
  | track j r₀ call hj hstep h =>
      subst h
      simp only [setRequest, trackCall, List.getElem?_set] at hi
      split at hi
      · simp only [Option.ite_none_right_eq_some, Option.some.injEq] at hi
        obtain ⟨_, rfl⟩ := hi
        intro statusCode headers hstep'
        cases hstep'
      · exact ha.answered i r hi

end ServerRun

/-- A request that `Shutdown` has dealt with: its call was cancelled by `Shutdown` or was terminal
when `Shutdown` collected the calls; or it has no call, and is answered with UNAVAILABLE, or with
the rejection that it gets from any server. -/
def ServedRequest.Settled (impl : ServerImpl) (r : ServedRequest) : Prop :=
  match r.step with
  | .received => True
  | .answered _ _ => r.AnsweredBy impl
  | _ => r.cancelled = true ∨ r.ended = true

namespace ServerRun

/-- Once the loop of `Shutdown` is done, a request is settled unless it escaped. -/
theorem settled_iff {impl : ServerImpl} {s : ServerRun} (hs : s.Registered) (ha : s.Answers impl)
    (hcol : s.Collected) (htodo : s.todo = []) :
    (∀ r ∈ s.requests, r.Settled impl) ↔ s.escapes = false := by
  simp only [escapes, List.any_eq_false]
  constructor
  · intro h r hr hesc
    obtain ⟨i, hi⟩ := List.mem_iff_getElem?.1 hr
    have hadm := hs.admitted i r hi
    have hset := h r hr
    -- a call that escapes was neither cancelled nor had it ended
    obtain ⟨hcancelled, hended, _⟩ := hadm.escaped (by
      simp only [ServedRequest.escaped, Bool.or_eq_true] at hesc
      apply hesc.imp_left
      intro hw
      cases hstep : r.step <;>
        simp [ServedRequest.inWindow, ServedRequest.registered, hstep] at hw ⊢)
    simp only [ServedRequest.escaped, ServedRequest.inWindow, Bool.or_eq_true] at hesc
    cases hstep : r.step with
    | received =>
        have hreg := hadm.tracked (hesc.resolve_left (by simp [hstep]))
        simp [ServedRequest.registered, hstep] at hreg
    | answered statusCode headers =>
        have hreg := hadm.tracked (hesc.resolve_left (by simp [hstep]))
        simp [ServedRequest.registered, hstep] at hreg
    | created call | tracked call | started call =>
        simp [ServedRequest.Settled, hstep, hcancelled, hended] at hset
  · intro h r hr
    obtain ⟨i, hi⟩ := List.mem_iff_getElem?.1 hr
    have hadm := hs.admitted i r hi
    have hno := h r hr
    simp only [ServedRequest.escaped, Bool.or_eq_true, not_or, Bool.not_eq_true] at hno
    -- the loop of `Shutdown` has dealt with every call that was in the registry in time
    have hdealt : r.registered = true → r.cancelled = true ∨ r.ended = true := by
      intro hreg
      rcases hadm.after hcol hreg with hlate | hended | hcancelled | hmem
      · rw [hno.2] at hlate
        cases hlate
      · exact Or.inr hended
      · exact Or.inl hcancelled
      · rw [htodo] at hmem
        cases hmem
    simp only [ServedRequest.Settled]
    cases hstep : r.step with
    | received => trivial
    | answered statusCode headers => exact ha.answered i r hi
    | created call => simp [ServedRequest.inWindow, hstep] at hno
    | tracked call => exact hdealt (by simp [ServedRequest.registered, hstep])
    | started call => exact hdealt (by simp [ServedRequest.registered, hstep])

end ServerRun

/-- **A call escapes `Shutdown` exactly if it is in the window at the collection.** In every run,
once the loop of `Shutdown` is done, every request is settled (its call was cancelled by `Shutdown`
or was terminal when it collected, or it is answered with UNAVAILABLE or its own rejection) if and
only if no request was between the check of `shutdown_` and `TrackCall` when `Shutdown` collected
the calls. -/
theorem no_call_escapes_iff (z : Zlib) (impl : ServerImpl) (gracePeriod numThreads : Nat)
    (iocStopped : Bool) (es : List ServerEvent) (s : ServerRun)
    (hrun : (ServerRun.machine z).run (ServerRun.new impl gracePeriod numThreads iocStopped) es =
      some s)
    (hcol : s.Collected) (htodo : s.todo = []) :
    (∀ r ∈ s.requests, r.Settled impl) ↔
      (ServerRun.machine z).Along ServerRun.NoneInWindow
        (ServerRun.new impl gracePeriod numThreads iocStopped) es := by
  have hinv := Machine.run_invariant (M := ServerRun.machine z)
    (I := fun s => s.Registered ∧ s.Answers impl)
    (fun _ _ _ hs hst => ⟨ServerRun.registered_step hs.1 hst, ServerRun.answers_step hs.1 hs.2 hst⟩)
    es _ s ⟨ServerRun.registered_new _ _ _ _, ⟨rfl, fun i r hi => by simp [ServerRun.new] at hi⟩⟩
      hrun
  have hnew : ¬ (ServerRun.new impl gracePeriod numThreads iocStopped).Collected := by
    intro h
    exact h.1 rfl
  exact (ServerRun.settled_iff hinv.1 hinv.2 hcol htodo).trans
    (ServerRun.escapes_iff (ServerRun.registered_new _ _ _ _) hnew hrun hcol)

/-- A call that runs when the server is shut down is cancelled. -/
theorem no_call_escapes_example :
    ∃ s, (ServerRun.machine Zlib.none).run (ServerRun.new unaryServer 30 1 false)
        (startEvents ++ .request unaryRequest :: List.replicate 3 (.requestNext 0) ++
          .shutdown :: List.replicate 3 .shutdownNext) = some s ∧
      ∀ r ∈ s.requests, r.Settled unaryServer := by
  refine ⟨_, rfl, (no_call_escapes_iff Zlib.none unaryServer 30 1 false
    (startEvents ++ .request unaryRequest :: List.replicate 3 (.requestNext 0) ++
      .shutdown :: List.replicate 3 .shutdownNext) _ rfl (by decide) rfl).2 ?_⟩
  decide

/-- **A call that is tracked after the collection escapes**: its request read `shutdown_` before the
flag was set, and its handler goes on to run. -/
theorem not_no_call_escapes :
    ¬ ∀ (z : Zlib) (impl : ServerImpl) (gracePeriod numThreads : Nat) (iocStopped : Bool)
      (es : List ServerEvent) (s : ServerRun),
      (ServerRun.machine z).run (ServerRun.new impl gracePeriod numThreads iocStopped) es =
          some s → s.Collected → s.todo = [] → ∀ r ∈ s.requests, r.Settled impl := by
  intro h
  have hsettled := h Zlib.none unaryServer 30 1 false
    (startEvents ++ .request unaryRequest :: .requestNext 0 :: .shutdown ::
      List.replicate 2 .shutdownNext ++ List.replicate 2 (.requestNext 0))
    _ rfl (by decide) rfl _ List.mem_cons_self
  rcases hsettled with hcancelled | hended
  · cases hcancelled
  · cases hended

end Rpcpio.Server
