import Rpcpio.Client.UnaryCallCompletion

/-!
# Cancelling a unary call

`Cancel` stores `cancelled_` and then copies `cancel_stream_`; the submit closure sets
`cancel_stream_` and then reads `cancelled_`. Whichever comes second sees the other, so a stream
that was submitted is cancelled, unless `ClearCancelStream` empties the slot between the two
(`KeepsSlot`). `CancelRun` adds two history variables to the call: which threads run `Cancel`, and
whether the one that passed `completed_` first does. `Handshake` is the invariant.
-/

set_option autoImplicit false

namespace Rpcpio.Client

open Rpcpio.Library Rpcpio.Protocol

/-- A unary call with its history: for each thread whether it runs `Cancel`, and the same of the
thread that passed `completed_` first. -/
structure CancelRun where
  call : UnaryCall
  owners : List Bool
  winner : Option Bool
  deriving DecidableEq, Repr

namespace CancelRun

/-- A new call. -/
def new (ctx : Option ClientContext) : CancelRun := ⟨UnaryCall.new ctx, [], none⟩

/-- The owners after an event that leads to the call `u`: the two events of `Cancel` start a thread
of its own, and a thread that ends leaves the list. -/
def nextOwners (x : CancelRun) (u : UnaryCall) : UnaryCallEvent → List Bool
  | .cancel => x.owners ++ [true]
  | .cancelOnStrand => x.owners ++ [true]
  | .thread i =>
      if u.threads.length < x.call.threads.length then x.owners.eraseIdx i else x.owners
  | _ => x.owners ++ List.replicate (u.threads.length - x.call.threads.length) false

/-- The winner after an event: an exchange that finds `completed_` unset. -/
def nextWinner (x : CancelRun) : UnaryCallEvent → Option Bool
  | .thread i =>
      match x.call.threads[i]? with
      | some (.exchange _) => if x.call.completed then x.winner else x.owners[i]?
      | _ => x.winner
  | _ => x.winner

/-- One event of the call, with its history. -/
def step (z : Zlib) (x : CancelRun) (e : UnaryCallEvent) : Option CancelRun :=
  (UnaryCall.step z x.call e).map fun u => ⟨u, x.nextOwners u e, x.nextWinner e⟩

/-- The calls with their history as a machine. -/
def machine (z : Zlib) : Machine CancelRun UnaryCallEvent := ⟨step z⟩

/-- The history does not restrict the call. -/
theorem run_call {z : Zlib} {es : List UnaryCallEvent} {x : CancelRun} :
    (machine z).run x es = none ↔ (UnaryCall.machine z).run x.call es = none := by
  induction es generalizing x with
  | nil => simp
  | cons e es ih =>
      simp only [Machine.run_cons]
      show ((step z x e).bind fun y => (machine z).run y es) = none ↔
        ((UnaryCall.step z x.call e).bind fun u => (UnaryCall.machine z).run u es) = none
      cases h : UnaryCall.step z x.call e with
      | none => simp [step, h]
      | some u => simpa [step, h] using ih

/-- A run with history is a run of the call. -/
theorem run_call_some {z : Zlib} {es : List UnaryCallEvent} {x y : CancelRun}
    (h : (machine z).run x es = some y) : (UnaryCall.machine z).run x.call es = some y.call := by
  induction es generalizing x with
  | nil =>
      rw [Machine.run_nil, Option.some.injEq] at h
      rw [Machine.run_nil, h]
  | cons e es ih =>
      obtain ⟨w, hw, hrest⟩ := Machine.run_cons_some.1 h
      obtain ⟨u, hu, rfl⟩ := Option.map_eq_some_iff.1 hw
      exact Machine.run_cons_some.2 ⟨u, hu, ih hrest⟩

/-- The stream's cancel function has been called: its closure is on the strand, or has run. -/
def Invoked (u : UnaryCall) : Prop :=
  UnaryTask.cancel ∈ u.strand ∨ Effect.request .cancel ∈ u.trace

/-- Some `Cancel` took the function out of `cancel_stream_`, and has called it or calls it next. -/
def Taken (u : UnaryCall) : Prop := Invoked u ∨ Pc.invokeCancelStream true ∈ u.threads

/-- The condition on a step: between the locked block of `SetCancelStream` that found `cancelled_`
set and the copy of `cancel_stream_` in the `Cancel` it then calls, no winning `Cancel` runs
`ClearCancelStream`, unless the function was copied before. -/
def KeepsSlot (x : CancelRun) (e : UnaryCallEvent) : Prop :=
  match e with
  | .thread i =>
      match x.call.threads[i]? with
      | some (.clearCancelStream _) =>
          x.call.phase = .cancelling → x.winner = some false ∨ Taken x.call
      | _ => True
  | _ => True

instance (u : UnaryCall) : Decidable (Invoked u) := inferInstanceAs (Decidable (_ ∨ _))

instance (u : UnaryCall) : Decidable (Taken u) := inferInstanceAs (Decidable (_ ∨ _))

instance (x : CancelRun) (e : UnaryCallEvent) : Decidable (x.KeepsSlot e) := by
  simp only [KeepsSlot]
  split
  · split <;> infer_instance
  · infer_instance

/-- The result with which the thread that won the exchange completes the call. -/
def winning : Pc → Option UnaryResultRaw
  | .clearCancelStream r => some r
  | .postHandler r => some r
  | _ => none

/-- The results on their way to the handler, and those it received. -/
def results (u : UnaryCall) : List UnaryResultRaw :=
  u.threads.filterMap winning ++ u.posted ++ u.handled

/-- A thread that runs `Cancel` stands at `pc`. -/
def OwnedAt (owners : List Bool) (threads : List Pc) (pc : Pc) : Prop :=
  ∃ i : Nat, owners[i]? = some true ∧ threads[i]? = some pc

/-- The thread has not seen an empty `cancel_stream_`. -/
def SeesSlot : Pc → Prop
  | .storeCancelled => True
  | .copyCancelStream => True
  | .invokeCancelStream copied => copied = true
  | _ => False

/-! ## Threads and their owners -/

section

variable {owners : List Bool} {threads : List Pc} {pc pc' : Pc} {i : Nat}

theorem ownedAt_append (hlen : owners.length = threads.length) {bs : List Bool} {pcs : List Pc}
    (h : OwnedAt (owners ++ bs) (threads ++ pcs) pc) :
    OwnedAt owners threads pc ∨ OwnedAt bs pcs pc := by
  obtain ⟨j, hj, hpc⟩ := h
  by_cases hlt : j < owners.length
  · rw [List.getElem?_append_left hlt] at hj
    rw [List.getElem?_append_left (hlen ▸ hlt)] at hpc
    exact Or.inl ⟨j, hj, hpc⟩
  · have hle : owners.length ≤ j := Nat.le_of_not_lt hlt
    rw [List.getElem?_append_right hle] at hj
    rw [List.getElem?_append_right (hlen ▸ hle), ← hlen] at hpc
    exact Or.inr ⟨_, hj, hpc⟩

theorem not_ownedAt_replicate {n : Nat} {pcs : List Pc} :
    ¬ OwnedAt (List.replicate n false) pcs pc := by
  rintro ⟨j, hj, _⟩
  rw [List.getElem?_replicate] at hj
  split at hj <;> cases hj

theorem ownedAt_set (h : OwnedAt owners (threads.set i pc') pc) :
    OwnedAt owners threads pc ∨ (pc = pc' ∧ owners[i]? = some true) := by
  obtain ⟨j, hj, hpc⟩ := h
  rw [List.getElem?_set] at hpc
  split at hpc
  · rename_i hij
    subst hij
    split at hpc
    · exact Or.inr ⟨(Option.some.inj hpc).symm, hj⟩
    · cases hpc
  · exact Or.inl ⟨j, hj, hpc⟩

theorem ownedAt_eraseIdx (h : OwnedAt (owners.eraseIdx i) (threads.eraseIdx i) pc) :
    OwnedAt owners threads pc := by
  obtain ⟨j, hj, hpc⟩ := h
  rw [List.getElem?_eraseIdx] at hj hpc
  split at hj
  · rename_i hlt
    rw [if_pos hlt] at hpc
    exact ⟨j, hj, hpc⟩
  · rename_i hlt
    rw [if_neg hlt] at hpc
    exact ⟨j + 1, hj, hpc⟩

theorem ownedAt_singleton {b : Bool} (h : OwnedAt [b] [pc'] pc) : b = true ∧ pc = pc' := by
  obtain ⟨j, hj, hpc⟩ := h
  cases j with
  | zero => exact ⟨by simpa using hj, by simpa using hpc.symm⟩
  | succ j => simp at hj

/-- Replacing a thread by one with the same result in hand. -/
theorem filterMap_set_same (hi : threads[i]? = some pc) (h : winning pc' = winning pc) :
    (threads.set i pc').filterMap winning = threads.filterMap winning := by
  induction threads generalizing i with
  | nil => simp at hi
  | cons a l ih =>
      cases i with
      | zero =>
          obtain rfl : a = pc := by simpa using hi
          simp [List.filterMap_cons, h]
      | succ i => simp [List.filterMap_cons, ih (i := i) (by simpa using hi)]

/-- The first winner. -/
theorem filterMap_set_first {r : UnaryResultRaw} (hi : threads[i]? = some pc)
    (hnone : threads.filterMap winning = []) (h : winning pc' = some r) :
    (threads.set i pc').filterMap winning = [r] := by
  induction threads generalizing i with
  | nil => simp at hi
  | cons a l ih =>
      rw [List.filterMap_cons] at hnone
      cases ha : winning a with
      | some s => simp [ha] at hnone
      | none =>
          simp only [ha] at hnone
          cases i with
          | zero => simp [h, hnone]
          | succ i => simp [ha, ih (i := i) (by simpa using hi) hnone]

end

/-! ## The invariant -/

/-- The submit closure has gone past `SetCancelStream`. -/
def Past (u : UnaryCall) : Prop := u.phase = .arming ∨ u.phase = .done

/-- The stream has been submitted. -/
def Submitted (u : UnaryCall) : Prop := u.streamId.isSome = true

/-- What holds between two steps, as long as the slot is kept. -/
structure Handshake (x : CancelRun) : Prop where
  length : x.owners.length = x.call.threads.length
  stored : ∀ pc, OwnedAt x.owners x.call.threads pc →
    pc = .storeCancelled ∨ x.call.cancelled = true
  result : ∀ r, OwnedAt x.owners x.call.threads (.exchange r) → r = cancelledResult
  winner : x.winner.isSome = x.call.completed
  noResult : x.call.completed = false → results x.call = []
  oneResult : x.call.completed = true →
    ∃ r, results x.call = [r] ∧ (x.winner = some true → r = cancelledResult)
  cancelledWinner : x.winner = some true → x.call.cancelled = true
  unsubmitted : x.call.phase = .waiting ∨ x.call.phase = .queued ∨ x.call.phase = .building →
    x.call.streamId = none
  slot : x.call.phase = .cancelling →
    x.call.cancelStream = true ∨ x.winner = some false ∨ Taken x.call
  submitted : Past x.call → Submitted x.call → ¬ Taken x.call → x.winner ≠ some true ∧
    (x.call.completed = false → x.call.cancelStream = true ∧
      ∀ pc, OwnedAt x.owners x.call.threads pc → SeesSlot pc)

theorem handshake_new (ctx : Option ClientContext) : Handshake (new ctx) where
  length := rfl
  stored := by rintro pc ⟨i, hi, _⟩; simp [new] at hi
  result := by rintro r ⟨i, hi, _⟩; simp [new] at hi
  winner := rfl
  noResult _ := rfl
  oneResult h := by cases h
  cancelledWinner h := by cases h
  unsubmitted _ := rfl
  slot h := by cases h
  submitted _ h := by cases h

/-! ## Events other than those of `Cancel` and of the threads -/

/-- The event is neither an access of a thread nor the start of a `Cancel`. -/
def IsOther : UnaryCallEvent → Prop
  | .cancel => False
  | .cancelOnStrand => False
  | .thread _ => False
  | _ => True

/-- The event starts completions at most, and leaves what the gate holds. -/
structure Extends (u u' : UnaryCall) : Prop where
  threads : ∃ rs : List UnaryResultRaw, u'.threads = u.threads ++ rs.map .exchange
  queue : u'.posted ++ u'.handled = u.posted ++ u.handled
  completed : u'.completed = u.completed
  cancelled : u.cancelled = true → u'.cancelled = true

theorem Extends.same {u u' : UnaryCall} (ht : u'.threads = u.threads)
    (hq : u'.posted ++ u'.handled = u.posted ++ u.handled) (hc : u'.completed = u.completed)
    (hcan : u.cancelled = true → u'.cancelled = true) : Extends u u' :=
  ⟨⟨[], by simp [ht]⟩, hq, hc, hcan⟩

theorem Extends.spawn {u u' : UnaryCall} (r : UnaryResultRaw)
    (ht : u'.threads = u.threads ++ [.exchange r])
    (hq : u'.posted ++ u'.handled = u.posted ++ u.handled) (hc : u'.completed = u.completed)
    (hcan : u.cancelled = true → u'.cancelled = true) : Extends u u' :=
  ⟨⟨[r], by simp [ht]⟩, hq, hc, hcan⟩

theorem Extends.results {u u' : UnaryCall} (h : Extends u u') : results u' = results u := by
  obtain ⟨rs, hrs⟩ := h.threads
  have hnone : (rs.map Pc.exchange).filterMap winning = [] := by
    induction rs with
    | nil => rfl
    | cons r rs ih => simp [winning]
  simp only [CancelRun.results, hrs, List.filterMap_append, hnone, List.append_nil,
    List.append_assoc, h.queue]

theorem Extends.taken {u u' : UnaryCall} (h : Extends u u') (hinv : Invoked u → Invoked u')
    (ht : Taken u) : Taken u' := by
  obtain ⟨rs, hrs⟩ := h.threads
  rcases ht with ht | ht
  · exact Or.inl (hinv ht)
  · right
    rw [hrs]
    exact List.mem_append_left _ ht

section

variable {x : CancelRun} {u : UnaryCall} {e : UnaryCallEvent}

/-- The lists and the gate after such an event; the clauses about the submit closure are left. -/
theorem Handshake.extend (h : Handshake x) (he : IsOther e) (hext : Extends x.call u)
    (huns : u.phase = .waiting ∨ u.phase = .queued ∨ u.phase = .building → u.streamId = none)
    (hslot : u.phase = .cancelling →
      u.cancelStream = true ∨ x.winner = some false ∨ Taken u)
    (hsub : Past u → Submitted u → ¬ Taken u → x.winner ≠ some true ∧
      (x.call.completed = false → u.cancelStream = true ∧
        ∀ pc, OwnedAt x.owners x.call.threads pc → SeesSlot pc)) :
    Handshake ⟨u, x.nextOwners u e, x.nextWinner e⟩ := by
  obtain ⟨rs, hrs⟩ := hext.threads
  have howners : x.nextOwners u e = x.owners ++ List.replicate rs.length false := by
    cases e <;> first | exact absurd he id | simp [nextOwners, hrs]
  have hwinner : x.nextWinner e = x.winner := by
    cases e <;> first | exact absurd he id | rfl
  -- the threads that are added do not belong to the control
  have hold : ∀ pc, OwnedAt (x.owners ++ List.replicate rs.length false) u.threads pc →
      OwnedAt x.owners x.call.threads pc := by
    intro pc hpc
    rw [hrs] at hpc
    rcases ownedAt_append h.length hpc with hpc | hpc
    · exact hpc
    · exact absurd hpc not_ownedAt_replicate
  rw [howners, hwinner]
  refine ⟨?_, ?_, ?_, ?_, ?_, ?_, ?_, huns, hslot, ?_⟩
  · simp [hrs, h.length]
  · intro pc hpc
    rcases h.stored pc (hold pc hpc) with hs | hs
    · exact Or.inl hs
    · exact Or.inr (hext.cancelled hs)
  · intro r hr
    exact h.result r (hold _ hr)
  · exact h.winner.trans hext.completed.symm
  · intro hc
    rw [hext.results]
    exact h.noResult (hext.completed ▸ hc)
  · intro hc
    rw [hext.results]
    exact h.oneResult (hext.completed ▸ hc)
  · intro hw
    exact hext.cancelled (h.cancelledWinner hw)
  · intro hp hs hi
    obtain ⟨hw, hopen⟩ := hsub hp hs hi
    refine ⟨hw, fun hc => ?_⟩
    obtain ⟨hslot', hsees⟩ := hopen (hext.completed ▸ hc)
    exact ⟨hslot', fun pc hpc => hsees pc (hold pc hpc)⟩

/-- The submit closure has not submitted a stream, and will not in this phase. -/
theorem Handshake.before (h : Handshake x) (he : IsOther e) (hext : Extends x.call u)
    (hid : u.streamId = none) (hphase : u.phase ≠ .cancelling) :
    Handshake ⟨u, x.nextOwners u e, x.nextWinner e⟩ := by
  apply h.extend he hext (fun _ => hid) (fun hp => absurd hp hphase)
  intro _ hs
  simp [Submitted, hid] at hs

/-- The submit closure stays where it is, or ends. -/
theorem Handshake.quiet (h : Handshake x) (he : IsOther e) (hext : Extends x.call u)
    (hphase : u.phase = x.call.phase) (hid : u.streamId = x.call.streamId)
    (hslot : u.cancelStream = x.call.cancelStream) (hinv : Invoked x.call → Invoked u) :
    Handshake ⟨u, x.nextOwners u e, x.nextWinner e⟩ := by
  apply h.extend he hext
  · rw [hphase, hid]
    exact h.unsubmitted
  · intro hp
    rw [hslot]
    exact (h.slot (hphase ▸ hp)).imp id (Or.imp id (hext.taken hinv))
  · intro hp hs hi
    rw [hslot]
    apply h.submitted _ _ fun hx => hi (hext.taken hinv hx)
    · rwa [Past, hphase] at hp
    · rwa [Submitted, hid] at hs

end

theorem invoked_post {u : UnaryCall} (t : UnaryTask) (h : Invoked u) : Invoked (u.post t) := by
  rcases h with h | h
  · exact Or.inl (List.mem_append_left _ h)
  · exact Or.inr h

theorem invoked_spawn {u : UnaryCall} (pc : Pc) (h : Invoked u) : Invoked (u.spawn pc) := h

theorem invoked_log {u : UnaryCall} (es : List Effect) (h : Invoked u) : Invoked (u.log es) := by
  rcases h with h | h
  · exact Or.inl h
  · exact Or.inr (List.mem_append_left _ h)

theorem invoked_cancelOnStream (u : UnaryCall) : Invoked u.cancelOnStream :=
  Or.inr (List.mem_append_right _ (List.mem_singleton_self _))

/-- A closure on the strand keeps the cancellation in the trace, or puts it there. -/
theorem invoked_runTask {z : Zlib} {u : UnaryCall} {t : UnaryTask} {rest : List UnaryTask}
    (hs : u.strand = t :: rest) (h : Invoked u) :
    Invoked ({ u with strand := rest }.runTask z t) := by
  have hrest : t ≠ .cancel → Invoked { u with strand := rest } := by
    intro hne
    rcases h with h | h
    · rw [hs] at h
      rcases List.mem_cons.1 h with h | h
      · exact absurd h.symm hne
      · exact Or.inl h
    · exact Or.inr h
  cases t with
  | cancel => exact invoked_cancelOnStream _
  | data chunk => exact hrest (by simp)
  | trailers trailers => exact invoked_log _ (hrest (by simp))
  | close errorCode => exact hrest (by simp)
  | deadline => exact hrest (by simp)

/-- Running the handler moves the only result. -/
theorem results_runHandler {u : UnaryCall} {i : Nat} {r q : UnaryResultRaw}
    (hr : u.posted[i]? = some r) (hq : results u = [q]) :
    u.posted.eraseIdx i ++ (u.handled ++ [r]) = u.posted ++ u.handled := by
  have hlen := congrArg List.length hq
  have hlt : i < u.posted.length := (List.getElem?_eq_some_iff.1 hr).1
  simp only [results, List.length_append, List.length_singleton] at hlen
  have hhandled : u.handled = [] := List.length_eq_zero_iff.1 (by omega)
  obtain ⟨p, hp⟩ := List.length_eq_one_iff.1 (show u.posted.length = 1 by omega)
  rw [hp] at hr hlt
  have hi : i = 0 := by simpa using hlt
  subst hi
  have hpr : p = r := by simpa using hr
  simp [hp, hhandled, hpr]

/-- A thread that posts the handler moves the only result to the queue. -/
theorem results_postHandler {u : UnaryCall} {i : Nat} {r q : UnaryResultRaw}
    (hi : u.threads[i]? = some (.postHandler r)) (hq : results u = [q]) :
    (u.threads.eraseIdx i).filterMap winning ++ (u.posted ++ [r]) ++ u.handled = results u := by
  have hmem : r ∈ u.threads.filterMap winning :=
    List.mem_filterMap.2 ⟨_, List.mem_of_getElem? hi, rfl⟩
  have hlen := congrArg List.length hq
  have hpos := List.length_pos_of_mem hmem
  simp only [results, List.length_append, List.length_singleton] at hlen
  have hposted : u.posted = [] := List.length_eq_zero_iff.1 (by omega)
  have hhandled : u.handled = [] := List.length_eq_zero_iff.1 (by omega)
  obtain ⟨q', hq'⟩ := List.length_eq_one_iff.1
    (show (u.threads.filterMap winning).length = 1 by omega)
  obtain ⟨j, hj, herase⟩ := filterMap_eraseIdx_some (f := winning) hi rfl
  rw [hq'] at hj herase
  have hjz : j = 0 := by
    have hjlt := (List.getElem?_eq_some_iff.1 hj).1
    simpa using hjlt
  subst hjz
  have hqr : q' = r := by simpa using hj
  simp [results, herase, hposted, hhandled, hq', hqr]

/-- Only a completed call has a result. -/
theorem Handshake.completed_of_result {x : CancelRun} (h : Handshake x) {r : UnaryResultRaw}
    (hr : r ∈ results x.call) : x.call.completed = true := by
  cases hc : x.call.completed with
  | true => rfl
  | false =>
      rw [h.noResult hc] at hr
      cases hr

/-- A winner has a result. -/
theorem Handshake.completed_of_winning {x : CancelRun} (h : Handshake x) {i : Nat} {pc : Pc}
    {r : UnaryResultRaw} (hi : x.call.threads[i]? = some pc) (hw : winning pc = some r) :
    x.call.completed = true := by
  have hmem : r ∈ x.call.threads.filterMap winning :=
    List.mem_filterMap.2 ⟨pc, List.mem_of_getElem? hi, hw⟩
  exact h.completed_of_result (List.mem_append_left _ (List.mem_append_left _ hmem))

/-- `SetCancelStream` fills the slot. -/
theorem handshake_setCancelStream {x : CancelRun} (h : Handshake x) :
    Handshake ⟨{ x.call with
        cancelStream := true
        phase := if x.call.cancelled then .cancelling else .arming },
      x.nextOwners { x.call with
        cancelStream := true
        phase := if x.call.cancelled then .cancelling else .arming } .setCancelStream,
      x.nextWinner .setCancelStream⟩ := by
  refine h.extend trivial (.same rfl rfl rfl id) ?_ ?_ ?_
  · intro hp
    cases hc : x.call.cancelled <;> simp [hc] at hp
  · intro _
    exact Or.inl rfl
  · intro hp _ _
    cases hc : x.call.cancelled with
    | true => simp [Past, hc] at hp
    | false =>
        -- no `Cancel` has stored `cancelled_`, so none has copied the slot
        refine ⟨fun hw => ?_, fun _ => ⟨rfl, fun pc hpc => ?_⟩⟩
        · rw [h.cancelledWinner hw] at hc
          cases hc
        · rcases h.stored pc hpc with rfl | hs
          · trivial
          · rw [hs] at hc
            cases hc

/-- `SetCancelStream` finds `cancelled_` set and the slot empty: the slot was emptied, not by a
winning `Cancel`, or after a copy. -/
theorem handshake_cancelUnset {x : CancelRun} (h : Handshake x)
    (hphase : x.call.phase = .cancelling) (hslot : x.call.cancelStream = false) :
    Handshake ⟨{ x.call with cancelled := true, phase := .arming },
      x.nextOwners { x.call with cancelled := true, phase := .arming } .cancelSubmitted,
      x.nextWinner .cancelSubmitted⟩ := by
  refine h.extend trivial (.same rfl rfl rfl fun _ => rfl) ?_ ?_ ?_
  · rintro (hp | hp | hp) <;> cases hp
  · intro hp
    cases hp
  · intro _ _ hi
    rcases h.slot hphase with hfull | hw | ht
    · rw [hslot] at hfull
      cases hfull
    · refine ⟨by simp [hw], fun hc => ?_⟩
      have hsome := h.winner
      rw [hw, hc] at hsome
      cases hsome
    · exact absurd ht hi

/-- **The events of the strand, the session and the executors keep the handshake.** -/
theorem handshake_other {z : Zlib} {x : CancelRun} {u : UnaryCall} {e : UnaryCallEvent}
    (h : Handshake x) (he : IsOther e) (hstep : UnaryCall.step z x.call e = some u) :
    Handshake ⟨u, x.nextOwners u e, x.nextWinner e⟩ := by
  have hfail : ∀ {e} s, IsOther e → Handshake ⟨x.call.failActive s,
      x.nextOwners (x.call.failActive s) e, x.nextWinner e⟩ := by
    intro e s he
    simp only [UnaryCall.failActive]
    split <;> exact h.quiet he (.same rfl rfl rfl id) rfl rfl rfl id
  cases UnaryCall.step_move hstep with
  | cancel => cases he
  | cancelOnStrand => cases he
  | cancelOnStrandUnset => cases he
  | thread i => cases he
  | submitCheck o hphase =>
      have hid : x.call.streamId = none :=
        h.unsubmitted (hphase.elim Or.inl fun hq => Or.inr (Or.inl hq))
      simp only [UnaryCall.submitCheck]
      split
      · exact h.before he (.spawn cancelledResult rfl rfl rfl id) hid (by simp [UnaryCall.spawn])
      · cases o with
        | refused s =>
            exact h.before he (.spawn (UnaryResultRaw.of s) rfl rfl rfl id) hid
              (by simp [UnaryCall.spawn])
        | queued => exact h.before he (.same rfl rfl rfl id) hid (by simp)
        | proceed => exact h.before he (.same rfl rfl rfl id) hid (by simp)
  | failPending s hphase =>
      exact h.before he (.spawn (UnaryResultRaw.of s) rfl rfl rfl id)
        (h.unsubmitted (Or.inr (Or.inl hphase))) (by simp [UnaryCall.spawn])
  | submitBuild o hphase =>
      have hid := h.unsubmitted (Or.inr (Or.inr hphase))
      cases o with
      | invalid s =>
          exact h.before he (.spawn (UnaryResultRaw.of s) rfl rfl rfl id) hid
            (by simp [UnaryCall.submitBuild, UnaryCall.spawn])
      | rejected s =>
          exact h.before he (.same rfl rfl rfl id) hid
            (by simp [UnaryCall.submitBuild, UnaryCall.after])
      | accepted id' =>
          -- the stream is submitted, and `SetCancelStream` is still to come
          refine h.extend he (.same rfl rfl rfl id) ?_ ?_ ?_
          · rintro (hp | hp | hp) <;> cases hp
          · intro hp
            cases hp
          · rintro (hp | hp) <;> cases hp
  | setCancelStream => exact handshake_setCancelStream h
  | cancelSubmitted =>
      refine h.extend he (.same rfl rfl rfl fun _ => rfl) ?_ ?_ ?_
      · rintro (hp | hp | hp) <;> cases hp
      · intro hp
        cases hp
      · intro _ _ hi
        exact absurd (Or.inl (invoked_cancelOnStream _)) hi
  | cancelUnset hphase hslot => exact handshake_cancelUnset h hphase hslot
  | armTimer hphase =>
      refine h.extend he (.same rfl rfl rfl id) ?_ ?_ ?_
      · rintro (hp | hp | hp) <;> cases hp
      · intro hp
        cases hp
      · intro _ hs hi
        exact h.submitted (Or.inl hphase) hs fun hx => hi (hx.imp (invoked_log _) id)
  | response head => exact h.quiet he (.same rfl rfl rfl id) rfl rfl rfl id
  | data chunk => exact h.quiet he (.same rfl rfl rfl id) rfl rfl rfl (invoked_post _)
  | trailers trailers => exact h.quiet he (.same rfl rfl rfl id) rfl rfl rfl (invoked_post _)
  | close errorCode =>
      exact h.quiet he (.same rfl rfl rfl id) rfl rfl rfl
        fun hx => invoked_post _ (invoked_log _ hx)
  | task t rest hs =>
      cases t <;> exact h.quiet he (.same rfl rfl rfl id) rfl rfl rfl (invoked_runTask hs)
  | ioc i r => exact h.quiet he (.spawn r rfl rfl rfl id) rfl rfl rfl id
  | expire t => exact h.quiet he (.same rfl rfl rfl id) rfl rfl rfl id
  | timerHandler t => exact h.quiet he (.same rfl rfl rfl id) rfl rfl rfl (invoked_post _)
  | runHandler i r hr =>
      have hposted : r ∈ x.call.posted := List.mem_of_getElem? hr
      have hcompleted : x.call.completed = true :=
        h.completed_of_result (List.mem_append_left _ (List.mem_append_right _ hposted))
      obtain ⟨q, hq, _⟩ := h.oneResult hcompleted
      exact h.quiet he (.same rfl (results_runHandler hr hq) rfl id) rfl rfl rfl id
  | goaway lastStreamId => exact hfail _ he
  | spared lastStreamId => exact h.quiet he (.same rfl rfl rfl id) rfl rfl rfl id
  | shutdown => exact hfail _ he

/-! ## The accesses of `Cancel` and `Complete` -/

/-- A `Cancel` starts on a thread of the caller. -/
theorem handshake_cancel {x : CancelRun} (h : Handshake x) :
    Handshake ⟨x.call.spawn .storeCancelled, x.owners ++ [true], x.winner⟩ := by
  have hold : ∀ pc, OwnedAt (x.owners ++ [true]) (x.call.threads ++ [.storeCancelled]) pc →
      OwnedAt x.owners x.call.threads pc ∨ pc = .storeCancelled := by
    intro pc hpc
    rcases ownedAt_append h.length hpc with hpc | hpc
    · exact Or.inl hpc
    · exact Or.inr (ownedAt_singleton hpc).2
  have hresults : results (x.call.spawn .storeCancelled) = results x.call := by
    simp [results, UnaryCall.spawn, winning]
  have htaken : Taken x.call → Taken (x.call.spawn .storeCancelled) :=
    Or.imp id (List.mem_append_left _)
  refine ⟨?_, ?_, ?_, h.winner, ?_, ?_, h.cancelledWinner, h.unsubmitted,
    fun hp => (h.slot hp).imp id (Or.imp id htaken), ?_⟩
  · simp [UnaryCall.spawn, h.length]
  · intro pc hpc
    rcases hold pc hpc with hpc | rfl
    · exact h.stored pc hpc
    · exact Or.inl rfl
  · intro r hr
    rcases hold _ hr with hr | hr
    · exact h.result r hr
    · cases hr
  · intro hc
    rw [hresults]
    exact h.noResult hc
  · intro hc
    rw [hresults]
    exact h.oneResult hc
  · intro hp hs hi
    obtain ⟨hw, hopen⟩ := h.submitted hp hs fun hx => hi (htaken hx)
    refine ⟨hw, fun hc => ⟨(hopen hc).1, fun pc hpc => ?_⟩⟩
    rcases hold pc hpc with hpc | rfl
    · exact (hopen hc).2 pc hpc
    · trivial

/-- `Cancel` on the strand takes its first three steps at once. -/
theorem handshake_cancelOnStrand {x : CancelRun} {u : UnaryCall} (h : Handshake x)
    (hu : u = if x.call.cancelStream then
        { x.call with cancelled := true }.cancelOnStream
      else { x.call with cancelled := true }) (hfree : x.call.strandFree = true) :
    Handshake ⟨u.spawn (.exchange cancelledResult), x.owners ++ [true], x.winner⟩ := by
  have hthreads : u.threads = x.call.threads := by
    rw [hu]
    split <;> rfl
  have hqueue : u.posted = x.call.posted ∧ u.handled = x.call.handled ∧
      u.completed = x.call.completed ∧ u.cancelled = true ∧ u.phase = x.call.phase ∧
      u.streamId = x.call.streamId ∧ u.cancelStream = x.call.cancelStream := by
    rw [hu]
    split <;> exact ⟨rfl, rfl, rfl, rfl, rfl, rfl, rfl⟩
  obtain ⟨hposted, hhandled, hcompleted, hcancelled, hphase, hid, hslot⟩ := hqueue
  have hold : ∀ pc, OwnedAt (x.owners ++ [true]) (u.threads ++ [.exchange cancelledResult]) pc →
      OwnedAt x.owners x.call.threads pc ∨ pc = .exchange cancelledResult := by
    intro pc hpc
    rw [hthreads] at hpc
    rcases ownedAt_append h.length hpc with hpc | hpc
    · exact Or.inl hpc
    · exact Or.inr (ownedAt_singleton hpc).2
  have hresults : results (u.spawn (.exchange cancelledResult)) = results x.call := by
    simp [results, UnaryCall.spawn, winning, hthreads, hposted, hhandled]
  refine ⟨?_, ?_, ?_, h.winner.trans hcompleted.symm, ?_, ?_, fun _ => hcancelled, ?_, ?_, ?_⟩
  · simp [UnaryCall.spawn, hthreads, h.length]
  · intro pc _
    exact Or.inr hcancelled
  · intro r hr
    rcases hold _ hr with hr | hr
    · exact h.result r hr
    · exact Pc.exchange.inj hr
  · intro hc
    rw [hresults]
    exact h.noResult (hcompleted ▸ hc)
  · intro hc
    rw [hresults]
    exact h.oneResult (hcompleted ▸ hc)
  · intro hp
    exact hid.trans (h.unsubmitted (hphase ▸ hp))
  · intro hp
    have hcancelling : x.call.phase = .cancelling := hphase.symm.trans hp
    simp [UnaryCall.strandFree, hcancelling] at hfree
  · intro hp hs hi
    have hpast : Past x.call := by rwa [Past, ← hphase]
    have hsubmitted : Submitted x.call := by rwa [Submitted, ← hid]
    have hmono : Taken x.call → Taken (u.spawn (.exchange cancelledResult)) := by
      rintro (hx | hx)
      · left
        rw [hu]
        split
        · exact invoked_spawn _ (invoked_cancelOnStream _)
        · exact hx
      · right
        rw [← hthreads] at hx
        exact List.mem_append_left _ hx
    obtain ⟨hw, hopen⟩ := h.submitted hpast hsubmitted fun hx => hi (hmono hx)
    refine ⟨hw, fun hc => ?_⟩
    -- the slot is full before the call completes, so the stream has just been cancelled
    have hfull := (hopen (hcompleted ▸ hc)).1
    rw [hu, if_pos hfull] at hi
    exact absurd (Or.inl (invoked_spawn _ (invoked_cancelOnStream _))) hi

theorem taken_of_set {u u' : UnaryCall} {i : Nat} {pc pc' : Pc} (hi : u.threads[i]? = some pc)
    (ht : u'.threads = u.threads.set i pc') (hinv : Invoked u → Invoked u')
    (hpc : pc ≠ .invokeCancelStream true) (h : Taken u) : Taken u' := by
  rcases h with h | h
  · exact Or.inl (hinv h)
  · obtain ⟨j, hj⟩ := List.mem_iff_getElem?.1 h
    have hij : i ≠ j := by
      rintro rfl
      rw [hi] at hj
      exact hpc (Option.some.inj hj)
    right
    rw [ht]
    apply List.mem_iff_getElem?.2
    exact ⟨j, by rw [List.getElem?_set_ne hij, hj]⟩

theorem taken_of_eraseIdx {u u' : UnaryCall} {i : Nat} {pc : Pc} (hi : u.threads[i]? = some pc)
    (ht : u'.threads = u.threads.eraseIdx i) (hinv : Invoked u → Invoked u')
    (hpc : pc ≠ .invokeCancelStream true) (h : Taken u) : Taken u' := by
  rcases h with h | h
  · exact Or.inl (hinv h)
  · obtain ⟨j, hj⟩ := List.mem_iff_getElem?.1 h
    have hij : j ≠ i := by
      rintro rfl
      rw [hi] at hj
      exact hpc (Option.some.inj hj)
    right
    rw [ht]
    exact List.mem_eraseIdx_iff_getElem?.2 ⟨j, hij, hj⟩

section

variable {x : CancelRun} {u : UnaryCall} {i : Nat} {pc : Pc}

/-- A thread moves on with the same result in hand. -/
theorem Handshake.move (pc' : Pc) (h : Handshake x) (hi : x.call.threads[i]? = some pc)
    (ht : u.threads = x.call.threads.set i pc')
    (hq : u.posted = x.call.posted ∧ u.handled = x.call.handled)
    (hwin : winning pc' = winning pc) (hc : u.completed = x.call.completed)
    (hcan : x.call.cancelled = true → u.cancelled = true)
    (hphase : u.phase = x.call.phase) (hid : u.streamId = x.call.streamId)
    (htaken : Taken x.call → Taken u)
    (hstored : x.owners[i]? = some true → pc' = .storeCancelled ∨ u.cancelled = true)
    (hresult : ∀ r, pc' = .exchange r → r = cancelledResult)
    (hslot : x.call.phase = .cancelling →
      u.cancelStream = true ∨ x.winner = some false ∨ Taken u)
    (hsees : ¬ Taken u → x.call.completed = false → x.call.cancelStream = true →
      (x.owners[i]? = some true → SeesSlot pc) →
      u.cancelStream = true ∧ (x.owners[i]? = some true → SeesSlot pc')) :
    Handshake ⟨u, x.owners, x.winner⟩ := by
  -- the counter that the control owns is an old one, or the one that moves
  have hold : ∀ p, OwnedAt x.owners u.threads p →
      OwnedAt x.owners x.call.threads p ∨ (p = pc' ∧ x.owners[i]? = some true) := by
    intro p hp
    rw [ht] at hp
    exact ownedAt_set hp
  have hresults : results u = results x.call := by
    rw [results, results, ht, hq.1, hq.2, filterMap_set_same hi hwin]
  refine ⟨?_, ?_, ?_, h.winner.trans hc.symm, ?_, ?_, fun hw => hcan (h.cancelledWinner hw), ?_,
    fun hp => hslot (hphase ▸ hp), ?_⟩
  · simp [ht, h.length]
  · intro p hp
    rcases hold p hp with hp | ⟨rfl, ho⟩
    · exact (h.stored p hp).imp id hcan
    · exact hstored ho
  · intro r hr
    rcases hold _ hr with hr | ⟨hr, _⟩
    · exact h.result r hr
    · exact hresult r hr.symm
  · intro hopen
    rw [hresults]
    exact h.noResult (hc ▸ hopen)
  · intro hclosed
    rw [hresults]
    exact h.oneResult (hc ▸ hclosed)
  · intro hp
    exact hid.trans (h.unsubmitted (hphase ▸ hp))
  · intro hp hs hno
    have hpast : Past x.call := by rwa [Past, ← hphase]
    have hsubmitted : Submitted x.call := by rwa [Submitted, ← hid]
    obtain ⟨hw, hopen⟩ := h.submitted hpast hsubmitted fun hx => hno (htaken hx)
    refine ⟨hw, fun hnc => ?_⟩
    obtain ⟨hfull, hall⟩ := hopen (hc ▸ hnc)
    -- the slot is still filled, and no thread of the control has seen it empty
    obtain ⟨hslot', hmoved⟩ := hsees hno (hc ▸ hnc) hfull fun ho => hall pc ⟨i, ho, hi⟩
    refine ⟨hslot', fun p hp => ?_⟩
    rcases hold p hp with hp | ⟨rfl, ho⟩
    · exact hall p hp
    · exact hmoved ho

/-- A thread ends, having lost the exchange or posted the handler. -/
theorem Handshake.leave (h : Handshake x) (ht : u.threads = x.call.threads.eraseIdx i)
    (hlt : i < x.call.threads.length) (hresults : results u = results x.call)
    (hclosed : x.call.completed = true) (hc : u.completed = x.call.completed)
    (hcan : u.cancelled = x.call.cancelled) (hphase : u.phase = x.call.phase)
    (hid : u.streamId = x.call.streamId) (hslot : u.cancelStream = x.call.cancelStream)
    (htaken : Taken x.call → Taken u) :
    Handshake ⟨u, x.owners.eraseIdx i, x.winner⟩ := by
  -- owners and threads lose the same place
  have hold : ∀ p, OwnedAt (x.owners.eraseIdx i) u.threads p →
      OwnedAt x.owners x.call.threads p := by
    intro p hp
    rw [ht] at hp
    exact ownedAt_eraseIdx hp
  refine ⟨?_, ?_, ?_, h.winner.trans hc.symm, ?_, ?_, ?_, ?_, ?_, ?_⟩
  · have hlt' : i < x.owners.length := h.length ▸ hlt
    simp [ht, List.length_eraseIdx_of_lt hlt, List.length_eraseIdx_of_lt hlt', h.length]
  · intro p hp
    rw [hcan]
    exact h.stored p (hold p hp)
  · intro r hr
    exact h.result r (hold _ hr)
  · intro hopen
    rw [hc, hclosed] at hopen
    cases hopen
  · intro _
    rw [hresults]
    exact h.oneResult hclosed
  · intro hw
    exact hcan.trans (h.cancelledWinner hw)
  · intro hp
    exact hid.trans (h.unsubmitted (hphase ▸ hp))
  · intro hp
    rw [hslot]
    exact (h.slot (hphase ▸ hp)).imp id (Or.imp id htaken)
  · intro hp hs hno
    have hpast : Past x.call := by rwa [Past, ← hphase]
    have hsubmitted : Submitted x.call := by rwa [Submitted, ← hid]
    refine ⟨(h.submitted hpast hsubmitted fun hx => hno (htaken hx)).1, fun hopen => ?_⟩
    rw [hc, hclosed] at hopen
    cases hopen

/-- **An exchange that finds `completed_` unset.** If it is `Cancel`'s, `cancelled_` is stored, and
past `SetCancelStream` the stream's cancel function has been called. -/
theorem handshake_win (h : Handshake x) {r : UnaryResultRaw}
    (hi : x.call.threads[i]? = some (.exchange r)) (hopen : x.call.completed = false) :
    Handshake ⟨{ x.call with
        completed := true, threads := x.call.threads.set i (.clearCancelStream r) },
      x.owners, x.owners[i]?⟩ := by
  have hlt : i < x.call.threads.length := (List.getElem?_eq_some_iff.1 hi).1
  have hold : ∀ p, OwnedAt x.owners (x.call.threads.set i (.clearCancelStream r)) p →
      OwnedAt x.owners x.call.threads p ∨
        (p = .clearCancelStream r ∧ x.owners[i]? = some true) := fun p hp => ownedAt_set hp
  have hnone := h.noResult hopen
  simp only [results, List.append_eq_nil_iff] at hnone
  have hresults : (x.call.threads.set i (.clearCancelStream r)).filterMap winning = [r] :=
    filterMap_set_first hi hnone.1.1 rfl
  have hcancelled : x.owners[i]? = some true → x.call.cancelled = true := by
    intro ho
    rcases h.stored _ ⟨i, ho, hi⟩ with hp | hp
    · cases hp
    · exact hp
  have htaken : Taken x.call → Taken { x.call with
      completed := true, threads := x.call.threads.set i (.clearCancelStream r) } :=
    taken_of_set hi rfl id Pc.noConfusion
  have hlost : x.winner ≠ some false := by
    intro hw
    have hsome := h.winner
    rw [hw, hopen] at hsome
    cases hsome
  refine ⟨by simp [h.length], ?_, ?_, ?_, fun hc => (by cases hc), ?_, hcancelled, h.unsubmitted,
    fun hp => ?_, ?_⟩
  · intro p hp
    rcases hold p hp with hp | ⟨_, ho⟩
    · exact h.stored p hp
    · exact Or.inr (hcancelled ho)
  · intro q hq
    rcases hold _ hq with hq | ⟨hq, _⟩
    · exact h.result q hq
    · cases hq
  · simp [h.length, hlt]
  · intro _
    refine ⟨r, ?_, fun ho => h.result r ⟨i, ho, hi⟩⟩
    simp [results, hresults, hnone.1.2, hnone.2]
  · rcases h.slot hp with hfull | hw | ht
    · exact Or.inl hfull
    · exact absurd hw hlost
    · exact Or.inr (Or.inr (htaken ht))
  · intro hp hs hno
    obtain ⟨_, hall⟩ := h.submitted hp hs fun hx => hno (htaken hx)
    constructor
    · intro ho
      -- a `Cancel` that saw the slot would have called the function before its exchange
      exact (hall hopen).2 _ ⟨i, ho, hi⟩
    · intro hc
      exact by cases hc

end

/-- A thread that stays in the list, and does not exchange, leaves the history. -/
theorem history_of_set {x : CancelRun} {u : UnaryCall} {i : Nat} {pc pc' : Pc}
    (hi : x.call.threads[i]? = some pc) (ht : u.threads = x.call.threads.set i pc')
    (hpc : ∀ r, pc ≠ .exchange r) :
    x.nextOwners u (.thread i) = x.owners ∧ x.nextWinner (.thread i) = x.winner := by
  constructor
  · simp [nextOwners, ht]
  · cases pc with
    | exchange r => exact absurd rfl (hpc r)
    | _ => simp [nextWinner, hi]

/-- **An access of a thread keeps the handshake**, unless it empties the slot too early. -/
theorem handshake_thread {x : CancelRun} {i : Nat} {pc : Pc} (h : Handshake x)
    (hi : x.call.threads[i]? = some pc)
    (hkeep : ∀ r, pc = .clearCancelStream r → x.call.phase = .cancelling →
      x.winner = some false ∨ Taken x.call) :
    Handshake ⟨x.call.stepThread i pc, x.nextOwners (x.call.stepThread i pc) (.thread i),
      x.nextWinner (.thread i)⟩ := by
  have hlt : i < x.call.threads.length := (List.getElem?_eq_some_iff.1 hi).1
  have hstored : pc ≠ .storeCancelled → x.owners[i]? = some true → x.call.cancelled = true := by
    intro hne ho
    exact (h.stored _ ⟨i, ho, hi⟩).resolve_left hne
  have hslot : ∀ {v : UnaryCall}, v.cancelStream = x.call.cancelStream →
      (Taken x.call → Taken v) → x.call.phase = .cancelling →
      v.cancelStream = true ∨ x.winner = some false ∨ Taken v := by
    intro v hv ht hp
    rw [hv]
    exact (h.slot hp).imp id (Or.imp id ht)
  cases pc with
  | storeCancelled =>
      obtain ⟨ho, hw⟩ := history_of_set (u := x.call.stepThread i .storeCancelled) hi rfl
        fun _ => Pc.noConfusion
      rw [ho, hw]
      have htaken : Taken x.call → Taken (x.call.stepThread i .storeCancelled) :=
        taken_of_set hi rfl id Pc.noConfusion
      refine h.move .copyCancelStream hi rfl ⟨rfl, rfl⟩ rfl rfl (fun _ => rfl) rfl rfl htaken
        (fun _ => Or.inr rfl) (fun _ hr => by cases hr) (hslot rfl htaken) ?_
      intro _ _ hfull _
      exact ⟨hfull, fun _ => trivial⟩
  | copyCancelStream =>
      obtain ⟨ho, hw⟩ := history_of_set (u := x.call.stepThread i .copyCancelStream) hi rfl
        fun _ => Pc.noConfusion
      rw [ho, hw]
      have htaken : Taken x.call → Taken (x.call.stepThread i .copyCancelStream) :=
        taken_of_set hi rfl id Pc.noConfusion
      refine h.move (.invokeCancelStream x.call.cancelStream) hi rfl ⟨rfl, rfl⟩ rfl rfl id rfl rfl
        htaken (fun ho => Or.inr (hstored Pc.noConfusion ho)) (fun _ hr => by cases hr)
        (hslot rfl htaken) ?_
      intro _ _ hfull _
      exact ⟨hfull, fun _ => hfull⟩
  | invokeCancelStream copied =>
      cases copied with
      | true =>
          obtain ⟨ho, hw⟩ := history_of_set (u := x.call.stepThread i (.invokeCancelStream true))
            hi rfl fun _ => Pc.noConfusion
          have hinvoked : Invoked (x.call.stepThread i (.invokeCancelStream true)) :=
            Or.inl (List.mem_append_right _ (List.mem_singleton_self _))
          rw [ho, hw]
          exact h.move (.exchange cancelledResult) hi rfl ⟨rfl, rfl⟩ rfl rfl id rfl rfl
            (fun _ => Or.inl hinvoked) (fun ho => Or.inr (hstored Pc.noConfusion ho))
            (fun _ hr => (Pc.exchange.inj hr).symm) (fun _ => Or.inr (Or.inr (Or.inl hinvoked)))
            fun hno => absurd (Or.inl hinvoked) hno
      | false =>
          obtain ⟨ho, hw⟩ := history_of_set (u := x.call.stepThread i (.invokeCancelStream false))
            hi rfl fun _ => Pc.noConfusion
          rw [ho, hw]
          have htaken : Taken x.call → Taken (x.call.stepThread i (.invokeCancelStream false)) :=
            taken_of_set hi rfl id (by simp)
          refine h.move (.exchange cancelledResult) hi rfl ⟨rfl, rfl⟩ rfl rfl id rfl rfl htaken
            (fun ho => Or.inr (hstored Pc.noConfusion ho)) (fun _ hr => (Pc.exchange.inj hr).symm)
            (hslot rfl htaken) ?_
          intro _ _ hfull hsees
          exact ⟨hfull, fun ho => by cases hsees ho⟩
  | exchange r =>
      cases hc : x.call.completed with
      | true =>
          have hshorter : (x.call.threads.eraseIdx i).length < x.call.threads.length := by
            rw [List.length_eraseIdx_of_lt hlt]
            omega
          simp only [nextOwners, nextWinner, hi, UnaryCall.stepThread, hc, if_true, hshorter]
          refine h.leave rfl hlt ?_ hc hc.symm rfl rfl rfl rfl
            (taken_of_eraseIdx hi rfl id Pc.noConfusion)
          rw [results, results, filterMap_eraseIdx_none (f := winning) hi rfl]
      | false =>
          have hsame : x.nextOwners (x.call.stepThread i (.exchange r)) (.thread i) = x.owners := by
            simp [nextOwners, UnaryCall.stepThread, hc]
          have hwin : x.nextWinner (.thread i) = x.owners[i]? := by simp [nextWinner, hi, hc]
          have hstep : x.call.stepThread i (.exchange r) = { x.call with
              completed := true, threads := x.call.threads.set i (.clearCancelStream r) } := by
            simp [UnaryCall.stepThread, hc]
          rw [hsame, hwin, hstep]
          exact handshake_win h hi hc
  | clearCancelStream r =>
      obtain ⟨ho, hw⟩ := history_of_set (u := x.call.stepThread i (.clearCancelStream r)) hi rfl
        fun _ => Pc.noConfusion
      rw [ho, hw]
      have htaken : Taken x.call → Taken (x.call.stepThread i (.clearCancelStream r)) :=
        taken_of_set hi rfl id Pc.noConfusion
      refine h.move (.postHandler r) hi rfl ⟨rfl, rfl⟩ rfl rfl id rfl rfl htaken
        (fun ho => Or.inr (hstored Pc.noConfusion ho)) (fun _ hr => by cases hr)
        (fun hp => Or.inr ((hkeep r rfl hp).imp id htaken)) ?_
      intro _ hopen
      -- only a winner clears the slot, and there is none in an open call
      rw [h.completed_of_winning hi rfl] at hopen
      cases hopen
  | postHandler r =>
      have hshorter : (x.call.threads.eraseIdx i).length < x.call.threads.length := by
        rw [List.length_eraseIdx_of_lt hlt]
        omega
      have hc : x.call.completed = true := h.completed_of_winning hi rfl
      obtain ⟨q, hq, _⟩ := h.oneResult hc
      simp only [nextOwners, nextWinner, hi, UnaryCall.stepThread, UnaryCall.log, hshorter, if_true]
      exact h.leave rfl hlt (results_postHandler hi hq) hc rfl rfl rfl rfl rfl
        (taken_of_eraseIdx hi rfl (invoked_log _) Pc.noConfusion)

/-! ## Runs -/

/-- One event keeps the handshake, if it keeps the slot. -/
theorem handshake_step {z : Zlib} {x y : CancelRun} {e : UnaryCallEvent} (h : Handshake x)
    (hkeep : KeepsSlot x e) (hstep : step z x e = some y) : Handshake y := by
  obtain ⟨u, hu, rfl⟩ := Option.map_eq_some_iff.1 hstep
  cases e with
  | cancel =>
      cases hu
      exact handshake_cancel h
  | cancelOnStrand =>
      simp only [UnaryCall.step, Option.ite_none_right_eq_some, Option.some.injEq] at hu
      obtain ⟨hfree, rfl⟩ := hu
      exact handshake_cancelOnStrand h rfl hfree
  | thread i =>
      obtain ⟨pc, hpc, rfl⟩ := Option.map_eq_some_iff.1 hu
      apply handshake_thread h hpc
      intro r hr
      subst hr
      simpa [KeepsSlot, hpc] using hkeep
  | _ => exact handshake_other h trivial hu

/-- The handshake holds in every state of a run that keeps the slot. -/
theorem handshake_run {z : Zlib} {ctx : Option ClientContext} {es : List UnaryCallEvent}
    {x : CancelRun} (hrun : (machine z).run (new ctx) es = some x)
    (hkeep : (machine z).Along KeepsSlot (new ctx) es) : Handshake x :=
  Machine.run_invariant_along (M := machine z) (I := Handshake)
    (fun _ _ _ hx hk hstep => handshake_step hx hk hstep) es _ x (handshake_new ctx) hkeep hrun

/-- A `Cancel` that won leaves its result only, and past the submit closure either no stream or one
whose cancel function was taken. -/
def NotLost (x : CancelRun) : Prop :=
  x.winner = some true → results x.call = [cancelledResult] ∧
    (x.call.strandFree = true → x.call.streamId = none ∨ Taken x.call)

instance (x : CancelRun) : Decidable x.NotLost := inferInstanceAs (Decidable (_ → _))

theorem Handshake.notLost {x : CancelRun} (h : Handshake x) : NotLost x := by
  intro hw
  have hcompleted : x.call.completed = true := by
    rw [← h.winner, hw]
    rfl
  obtain ⟨r, hr, hcancelled⟩ := h.oneResult hcompleted
  refine ⟨by rw [hr, hcancelled hw], fun hfree => ?_⟩
  simp only [UnaryCall.strandFree, decide_eq_true_eq] at hfree
  rcases hfree with hp | hp | hp
  · exact Or.inl (h.unsubmitted (Or.inl hp))
  · exact Or.inl (h.unsubmitted (Or.inr (Or.inl hp)))
  · by_cases ht : Taken x.call
    · exact Or.inr ht
    · left
      by_contra hid
      exact (h.submitted (Or.inr hp) (Option.isSome_iff_ne_none.2 hid) ht).1 hw

/-- **Cancelling a unary call is not lost.** In every interleaving the handler runs at most once;
and if no winning `Cancel` empties the slot before the `Cancel` of `SetCancelStream` copies it, the
handler of a call that `Cancel` completed receives CANCELLED, and its stream is never submitted or
its cancel function is called. -/
theorem unary_cancel_not_lost (z : Zlib) (ctx : Option ClientContext) (es : List UnaryCallEvent)
    (x : CancelRun) (hrun : (machine z).run (new ctx) es = some x) :
    x.call.handled.length ≤ 1 ∧ ((machine z).Along KeepsSlot (new ctx) es → NotLost x) :=
  ⟨UnaryCall.handled_le_one (run_call_some hrun), fun hkeep => (handshake_run hrun hkeep).notLost⟩

/-- A `Cancel` that copies the slot after `SetCancelStream` has filled it. -/
def copiesInTime : List UnaryCallEvent :=
  [.submitCheck .proceed, .submitBuild (.accepted 1), .cancel, .thread 0, .setCancelStream,
    .thread 0, .thread 0, .thread 0, .thread 0, .thread 0, .runHandler 0, .cancelSubmitted,
    .armTimer]

theorem unary_cancel_not_lost_in_order :
    ∃ x, (machine Zlib.none).run (new none) copiesInTime = some x ∧
      x.winner = some true ∧ x.call.handled.length ≤ 1 ∧ NotLost x := by
  obtain ⟨x, hx⟩ := Option.isSome_iff_exists.1
    (show ((machine Zlib.none).run (new none) copiesInTime).isSome = true by decide)
  have hwin : ((machine Zlib.none).run (new none) copiesInTime).map CancelRun.winner =
      some (some true) := by decide
  rw [hx] at hwin
  obtain ⟨honce, hlost⟩ := unary_cancel_not_lost Zlib.none none _ x hx
  exact ⟨x, hx, Option.some.inj hwin, honce, hlost (by decide)⟩

/-- **A lost cancellation.** `Cancel` stores `cancelled_` and finds the slot empty;
`SetCancelStream` fills it and finds `cancelled_` set; `Cancel` completes and empties it again. The
handler receives CANCELLED and nothing cancels the stream. -/
theorem not_unary_cancel_not_lost :
    ∃ x, (machine Zlib.none).run (new none)
        [.submitCheck .proceed, .submitBuild (.accepted 1), .cancel, .thread 0, .thread 0,
          .thread 0, .setCancelStream, .thread 0, .thread 0, .cancelSubmitted, .armTimer,
          .thread 0, .runHandler 0] = some x ∧
      x.winner = some true ∧ x.call.handled = [cancelledResult] ∧ x.call.threads = [] ∧
      x.call.strand = [] ∧ x.call.phase = .done ∧ x.call.streamId = some 1 ∧
      ¬ Invoked x.call ∧ ¬ NotLost x := by
  refine ⟨_, rfl, ?_⟩
  decide

end CancelRun

end Rpcpio.Client
