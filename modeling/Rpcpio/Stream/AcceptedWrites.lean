import Rpcpio.Client.WriterQueue
import Rpcpio.Stream.Upload

/-!
# Writes that are accepted

A client call with a writer whose stream is open, in a run of any of its events: writes and
`WritesDone` by the application, callbacks of the session, closures, and polls of the generator
until it has returned the end of the data. `Write` answers before its closure runs, and it does not
look at `writes_done_`. If no message is written behind `WritesDone`, the bytes emitted are the
frames of the accepted writes, however the closures and the polls are scheduled (`Sending`); if one
is, a schedule drops it (`not_sentExactly_of_late`).
-/

set_option autoImplicit false

namespace Rpcpio.Stream

open Rpcpio.Library Rpcpio.Protocol Rpcpio.Client

/-- A call of the application on the writer of its stream. -/
inductive SendCall where
  | write (payload : Bytes)
  | writesDone
  deriving DecidableEq, Repr

/-- The call that an event makes. -/
def sendCall : CallEvent → Option SendCall
  | .write p => some (.write p)
  | .writesDone => some .writesDone
  | _ => none

/-- The event of a call. -/
def SendCall.event : SendCall → CallEvent
  | .write p => .write p
  | .writesDone => .writesDone

/-- The client, the payloads of the writes that returned `OK`, the bytes emitted, and whether a poll
has returned the end of the data. -/
structure SendRun where
  client : StreamingCall
  accepted : List Bytes
  emitted : Bytes
  eof : Bool
  deriving DecidableEq, Repr

namespace SendRun

/-- A call whose stream is open. -/
def start (kind : CallKind) (ctx : Option ClientContext) (id : StreamId) : SendRun :=
  ⟨(StreamingCall.new (kind.callState ctx)).submit (.accepted id), [], [], false⟩

/-- What the session makes of a result of the generator. -/
def take (u : SendRun) : GeneratorResult → SendRun
  | .data bytes => { u with emitted := u.emitted ++ bytes }
  | .eof _ => { u with eof := true }
  | .deferred => u

/-- The payloads accepted by a write. -/
def acceptedBy (p : Bytes) : List Bytes :=
  if (RawClientWriterImpl.enqueue p).1.isOk then [p] else []

/-- One event; the session does not poll behind the end of the data. -/
def step (u : SendRun) : CallEvent → Option SendRun
  | .write p =>
      (u.client.step (.write p)).map fun c =>
        { u with client := c, accepted := u.accepted ++ acceptedBy p }
  | .poll len =>
      if u.eof then none
      else
        u.client.call.writer.bind fun w =>
          (u.client.step (.poll len)).map fun c =>
            { u with client := c }.take (w.clientWriterGenerator len).2
  | e => (u.client.step e).map fun c => { u with client := c }

/-- The calls as a machine. -/
def machine : Machine SendRun CallEvent := ⟨step⟩

/-! ## The claim and its condition -/

/-- However the closures and the polls are scheduled between the calls, the bytes emitted up to the
end of the data are the frames of the accepted writes. -/
def SentExactly (kind : CallKind) (ctx : Option ClientContext) (id : StreamId)
    (calls : List SendCall) : Prop :=
  ∀ es u, machine.run (start kind ctx id) es = some u → es.filterMap sendCall = calls →
    u.eof = true → u.emitted = (u.accepted.map frameOf).flatten

/-- A write behind `WritesDone` is refused. -/
def LateRefused (calls : List SendCall) : Prop :=
  ∀ pre mid post p, calls = pre ++ .writesDone :: (mid ++ .write p :: post) →
    (RawClientWriterImpl.enqueue p).1.isOk = false

/-- No message that fits in a frame is written behind `WritesDone`. -/
def NoLateWrite (calls : List SendCall) : Prop :=
  ∀ pre mid post p, calls = pre ++ .writesDone :: (mid ++ .write p :: post) → 2 ^ 32 ≤ p.length

theorem enqueue_refused {p : Bytes} (hp : 2 ^ 32 ≤ p.length) :
    RawClientWriterImpl.enqueue p =
      (Status.of .resourceExhausted (text "message too large"), none) := by
  rw [RawClientWriterImpl.enqueue, encodeFrame_eq_none hp]

theorem acceptedBy_refused {p : Bytes} (hp : 2 ^ 32 ≤ p.length) : acceptedBy p = [] := by
  rw [acceptedBy, enqueue_refused hp]
  rfl

theorem acceptedBy_ok {p : Bytes} (hp : p.length < 2 ^ 32) : acceptedBy p = [p] := by
  rw [acceptedBy, RawClientWriterImpl.enqueue_ok hp]
  rfl

/-- `Write` refuses by the length alone. -/
theorem enqueue_refuses_iff (p : Bytes) :
    (RawClientWriterImpl.enqueue p).1.isOk = false ↔ 2 ^ 32 ≤ p.length := by
  rcases Nat.lt_or_ge p.length (2 ^ 32) with hp | hp
  · rw [RawClientWriterImpl.enqueue_ok hp]
    constructor
    · intro h
      cases h
    · intro h
      omega
  · rw [enqueue_refused hp]
    exact ⟨fun _ => hp, fun _ => rfl⟩

theorem lateRefused_iff (calls : List SendCall) : LateRefused calls ↔ NoLateWrite calls := by
  constructor
  · intro h pre mid post p hcalls
    exact (enqueue_refuses_iff p).1 (h pre mid post p hcalls)
  · intro h pre mid post p hcalls
    exact (enqueue_refuses_iff p).2 (h pre mid post p hcalls)

/-- What was called first was not late. -/
theorem NoLateWrite.of_append {calls more : List SendCall} (h : NoLateWrite (calls ++ more)) :
    NoLateWrite calls := by
  intro pre mid post p hcalls
  apply h pre mid (post ++ more) p
  rw [hcalls]
  simp

/-- A message that fits is written before `WritesDone`. -/
theorem NoLateWrite.not_done {calls : List SendCall} {p : Bytes}
    (h : NoLateWrite (calls ++ [.write p])) (hp : p.length < 2 ^ 32) :
    SendCall.writesDone ∉ calls := by
  intro hmem
  obtain ⟨pre, mid, rfl⟩ := List.append_of_mem hmem
  have hlong := h pre mid [] p (by simp)
  omega

/-! ## The invariant -/

/-- What the client has to send: the queue `o` of the generator and `writes_done_`, then the frames
`queued` in closures, and behind them `k` closures of `WritesDone`. -/
structure Sending (u : SendRun) (calls : List SendCall) (o : Outbox UInt8) (done : Bool)
    (queued : List Bytes) (k : Nat) : Prop where
  queue : u.client.call.queueOf = some (o.blocks, o.offset, done)
  wf : o.WellFormed
  tasks : u.client.strand.filter isWriterTask =
    queued.map StrandTask.enqueue ++ List.replicate k StrandTask.writesDone
  sent : u.emitted ++ o.unsent ++ queued.flatten = (u.accepted.map frameOf).flatten
  nonempty : ∀ f ∈ queued, f ≠ []
  order : done = true → queued = []
  issued : SendCall.writesDone ∈ calls ↔ done = true ∨ 0 < k
  ended : u.eof = true → o.blocks = [] ∧ done = true

/-- The invariant of the calls that write nothing behind `WritesDone`. -/
def Inv (u : SendRun) (calls : List SendCall) : Prop :=
  NoLateWrite calls → ∃ o done queued k, Sending u calls o done queued k

namespace Sending

variable {u : SendRun} {calls : List SendCall} {o : Outbox UInt8} {done : Bool}
  {queued : List Bytes} {k : Nat}

/-- At the end of the data everything accepted was emitted. -/
theorem emitted_of_eof (hu : Sending u calls o done queued k) (heof : u.eof = true) :
    u.emitted = (u.accepted.map frameOf).flatten := by
  obtain ⟨hblocks, hdone⟩ := hu.ended heof
  have hunsent : o.unsent = [] := (Outbox.unsent_eq_nil hu.wf).2 hblocks
  have hsent := hu.sent
  rw [hunsent, hu.order hdone, List.append_nil, List.flatten_nil, List.append_nil] at hsent
  exact hsent

/-- Before `WritesDone` nothing is done and none of its closures is queued. -/
theorem open_of_not_issued (hu : Sending u calls o done queued k)
    (hnot : SendCall.writesDone ∉ calls) : done = false ∧ k = 0 := by
  rw [hu.issued, not_or] at hnot
  exact ⟨by simpa using hnot.1, by omega⟩

/-- A step of the others. -/
theorem keep (hu : Sending u calls o done queued k) {c : StreamingCall}
    (hc : StreamingCall.KeepsQueue u.client c) :
    Sending { u with client := c } calls o done queued k :=
  { hu with
    queue := hc.queue.trans hu.queue
    tasks := hc.tasks.trans hu.tasks }

/-- An accepted write posts its frame. -/
theorem write (hu : Sending u calls o done queued k) {p : Bytes}
    (hnot : SendCall.writesDone ∉ calls) :
    Sending
      { u with
        client := u.client.post (.enqueue (frameOf p))
        accepted := u.accepted ++ [p] }
      (calls ++ [.write p]) o done (queued ++ [frameOf p]) k := by
  obtain ⟨hdone, hk⟩ := hu.open_of_not_issued hnot
  exact
    { queue := hu.queue
      wf := hu.wf
      tasks := by
        show (u.client.strand ++ [StrandTask.enqueue (frameOf p)]).filter isWriterTask = _
        rw [List.filter_append, hu.tasks, hk]
        simp [isWriterTask]
      sent := by
        show u.emitted ++ o.unsent ++ (queued ++ [frameOf p]).flatten = _
        rw [List.flatten_append, ← List.append_assoc, hu.sent]
        simp
      nonempty := by
        intro f hf
        rcases List.mem_append.1 hf with hf | hf
        · exact hu.nonempty f hf
        · rw [List.mem_singleton.1 hf]
          exact frameOf_ne_nil p
      order := fun h => by rw [hdone] at h; cases h
      issued := by
        rw [List.mem_append, hu.issued]
        simp
      ended := hu.ended }

/-- A refused write posts nothing. -/
theorem refuse (hu : Sending u calls o done queued k) (p : Bytes) :
    Sending u (calls ++ [.write p]) o done queued k :=
  { hu with
    issued := by
      rw [List.mem_append, hu.issued]
      simp }

theorem writesDone (hu : Sending u calls o done queued k) :
    Sending { u with client := u.client.post .writesDone } (calls ++ [.writesDone]) o done queued
      (k + 1) :=
  { hu with
    tasks := by
      show (u.client.strand ++ [StrandTask.writesDone]).filter isWriterTask = _
      rw [List.filter_append, hu.tasks, List.append_assoc, List.replicate_succ']
      rfl
    issued := by simp }

/-- The generator takes from the queue, or ends the data when everything was sent. -/
theorem poll (hu : Sending u calls o done queued k) (heof : u.eof = false) {x : RawClientWriterImpl}
    (hx : u.client.call.writer = some x) (len : Nat) {c : StreamingCall}
    (hcall : c.call.writer = some (x.clientWriterGenerator len).1)
    (hstrand : c.strand = u.client.strand) :
    ∃ o', Sending ({ u with client := c }.take (x.clientWriterGenerator len).2) calls o' done
      queued k := by
  have hqueue := hu.queue
  rw [StreamingCallState.queueOf, hx, Option.map_some, Option.some.injEq, Prod.mk.injEq,
    Prod.mk.injEq] at hqueue
  obtain ⟨hpending, hoffset, hdone⟩ := hqueue
  have hbox : x.outbox = o := by
    rw [RawClientWriterImpl.outbox, hpending, hoffset]
  by_cases hblocks : o.blocks = []
  · -- nothing is queued: the generator leaves the writer as it is
    have hkeep : c.call.writer = some x → StreamingCall.KeepsQueue u.client c := by
      intro hsame
      refine ⟨?_, by rw [hstrand]⟩
      rw [StreamingCallState.queueOf, StreamingCallState.queueOf, hx, hsame]
    cases done with
    | false =>
        have hgen : x.clientWriterGenerator len = (x, .deferred) := by
          rw [RawClientWriterImpl.clientWriterGenerator, hpending, hblocks, hdone]
          rfl
        rw [hgen] at hcall ⊢
        exact ⟨o, hu.keep (hkeep hcall)⟩
    | true =>
        have hgen : x.clientWriterGenerator len = (x, .eof false) := by
          rw [RawClientWriterImpl.clientWriterGenerator, hpending, hblocks, hdone]
          rfl
        rw [hgen] at hcall ⊢
        exact ⟨o, { hu.keep (hkeep hcall) with ended := fun _ => ⟨hblocks, rfl⟩ }⟩
  · have hgen := RawClientWriterImpl.clientWriterGenerator_drain len (hbox ▸ hu.wf)
      (hpending ▸ hblocks)
    rw [hbox] at hgen
    rw [hgen] at hcall ⊢
    -- a block is cut from the front of the queue; what was unsent is the block and the rest
    have hunsent := Outbox.drain_unsent hu.wf len
    refine ⟨(o.drain len).1, { hu with
      queue := ?_, wf := Outbox.drain_wellFormed hu.wf len, tasks := ?_, sent := ?_, ended := ?_ }⟩
    · show c.call.queueOf = _
      rw [StreamingCallState.queueOf, hcall, ← hdone]
      rfl
    · rw [← hu.tasks, ← hstrand]
      rfl
    · show (u.emitted ++ (o.drain len).2) ++ (o.drain len).1.unsent ++ queued.flatten = _
      rw [List.append_assoc u.emitted, hunsent]
      exact hu.sent
    · intro h
      have hrunning : u.eof = true := h
      rw [heof] at hrunning
      cases hrunning

/-- The next closure of the writer is a frame, or that of `WritesDone` behind all frames. -/
theorem task (hu : Sending u calls o done queued k) {t : StrandTask} {rest : List StrandTask}
    (hs : u.client.strand = t :: rest) (ht : isWriterTask t = true) :
    ∃ o' done' queued' k',
      Sending { u with client := StreamingCall.runTask { u.client with strand := rest } t } calls o'
        done' queued' k' := by
  obtain ⟨x, hx, hcore⟩ := Option.map_eq_some_iff.1 hu.queue
  simp only [Prod.mk.injEq] at hcore
  obtain ⟨hpending, hoffset, hdone⟩ := hcore
  have htasks := hu.tasks
  rw [hs, List.filter_cons_of_pos ht] at htasks
  cases queued with
  | cons f queued =>
      -- a frame moves from its closure to the queue of the generator
      rw [List.map_cons, List.cons_append, List.cons.injEq] at htasks
      obtain ⟨rfl, hrest⟩ := htasks
      have hopen : done = false := by
        cases hd : done with
        | false => rfl
        | true => exact absurd (hu.order hd) (List.cons_ne_nil f queued)
      have hf : f ≠ [] := hu.nonempty f List.mem_cons_self
      refine ⟨o.enqueue f, done, queued, k, ?_⟩
      rw [StreamingCall.runTask, StreamingCall.onWriter]
      simp only [hx]
      exact
        { queue := by
            show some (x.pending ++ [f], x.offset, x.writesDone) = _
            rw [hpending, hoffset, hdone]
            rfl
          wf := Outbox.enqueue_wellFormed hu.wf hf
          tasks := hrest
          sent := by
            have hsent := hu.sent
            rw [List.flatten_cons, ← List.append_assoc] at hsent
            show u.emitted ++ (o.enqueue f).unsent ++ queued.flatten = _
            rw [Outbox.enqueue_unsent hu.wf, ← List.append_assoc u.emitted]
            exact hsent
          nonempty := fun g hg => hu.nonempty g (List.mem_cons_of_mem f hg)
          order := fun h => by rw [hopen] at h; cases h
          issued := hu.issued
          ended := fun h => by
            have hended := (hu.ended h).2
            rw [hopen] at hended
            cases hended }
  | nil =>
      cases k with
      | zero => simp at htasks
      | succ k =>
          -- no frame is left in a closure, so the first closure of `WritesDone` runs
          rw [List.map_nil, List.nil_append, List.replicate_succ, List.cons.injEq] at htasks
          obtain ⟨rfl, hrest⟩ := htasks
          refine ⟨o, true, [], k, ?_⟩
          rw [StreamingCall.runTask, StreamingCall.onWriter]
          simp only [hx]
          exact
            { queue := by
                show some (x.pending, x.offset, true) = _
                rw [hpending, hoffset]
              wf := hu.wf
              tasks := by
                rw [List.map_nil, List.nil_append]
                exact hrest
              sent := hu.sent
              nonempty := hu.nonempty
              order := fun _ => rfl
              issued := by
                rw [hu.issued]
                simp
              ended := fun h => ⟨(hu.ended h).1, rfl⟩ }

end Sending

/-- The steps of the events that are not of the caller's own stream. -/
theorem step_other {u v : SendRun} {e : CallEvent} (h : u.step e = some v)
    (he : StreamingCall.isWriterEvent e = false) :
    ∃ c, u.client.step e = some c ∧ v = { u with client := c } ∧ sendCall e = none := by
  cases e with
  | write p => cases he
  | writesDone => cases he
  | poll len => cases he
  | _ =>
      simp only [step] at h
      obtain ⟨c, hc, rfl⟩ := Option.map_eq_some_iff.1 h
      exact ⟨c, hc, rfl, rfl⟩

/-- Each event keeps the invariant, with the calls made so far. -/
theorem inv_step {u v : SendRun} {calls : List SendCall} {e : CallEvent} (hu : Inv u calls)
    (h : u.step e = some v) : Inv v (calls ++ (sendCall e).toList) := by
  intro hlate
  obtain ⟨o, done, queued, k, hsending⟩ := hu hlate.of_append
  by_cases he : StreamingCall.isWriterEvent e = true
  · cases e with
    | write p =>
        obtain ⟨c, hc, rfl⟩ := Option.map_eq_some_iff.1 h
        simp only [StreamingCall.step, Option.ite_none_right_eq_some, Option.some.injEq] at hc
        obtain ⟨_, rfl⟩ := hc
        -- `Write` answers by the length, without a look at the queue
        rcases Nat.lt_or_ge p.length (2 ^ 32) with hp | hp
        · rw [acceptedBy_ok hp, RawClientWriterImpl.enqueue_ok hp]
          exact ⟨o, done, _, k, hsending.write (hlate.not_done hp)⟩
        · rw [acceptedBy_refused hp, enqueue_refused hp, List.append_nil]
          exact ⟨o, done, queued, k, hsending.refuse p⟩
    | writesDone =>
        obtain ⟨c, hc, rfl⟩ := Option.map_eq_some_iff.1 h
        simp only [StreamingCall.step, Option.ite_none_right_eq_some, Option.some.injEq] at hc
        obtain ⟨_, rfl⟩ := hc
        exact ⟨o, done, queued, _, hsending.writesDone⟩
    | poll len =>
        simp only [step, Option.ite_none_left_eq_some] at h
        obtain ⟨heof, h⟩ := h
        obtain ⟨x, hx, h⟩ := Option.bind_eq_some_iff.1 h
        obtain ⟨c, hc, rfl⟩ := Option.map_eq_some_iff.1 h
        simp only [StreamingCall.step, Option.ite_none_right_eq_some, Option.some.injEq] at hc
        obtain ⟨_, rfl⟩ := hc
        obtain ⟨o', ho'⟩ := hsending.poll (by simpa using heof) hx len
          (c := { u.client with call := { u.client.call with
            writer := u.client.call.writer.map fun x => (x.clientWriterGenerator len).1 } })
          (by simp [hx]) rfl
        have hnone : sendCall (.poll len) = none := rfl
        rw [hnone, Option.toList_none, List.append_nil]
        exact ⟨o', done, queued, k, ho'⟩
    | _ => cases he
  · obtain ⟨c, hc, rfl, hnone⟩ := step_other h (by simpa using he)
    rw [hnone, Option.toList_none, List.append_nil]
    rcases StreamingCall.other_step hc (by simpa using he) with hkeep | ⟨t, rest, hs, ht, rfl⟩
    · exact ⟨o, done, queued, k, hsending.keep hkeep⟩
    · exact hsending.task hs ht

theorem inv_start {kind : CallKind} (hkind : kind ≠ .serverStreaming) (ctx : Option ClientContext)
    (id : StreamId) : Inv (start kind ctx id) [] := by
  intro _
  refine ⟨Outbox.empty, false, [], 0, ?_⟩
  have hqueue : (start kind ctx id).client.call.queueOf = some ([], 0, false) := by
    cases kind with
    | serverStreaming => exact absurd rfl hkind
    | clientStreaming => rfl
    | bidi => rfl
  exact
    { queue := hqueue
      wf := Outbox.empty_wellFormed
      tasks := rfl
      sent := rfl
      nonempty := by simp
      order := fun _ => rfl
      issued := by simp
      ended := fun h => by cases h }

/-- The calls of a run, as the fold of its events. -/
theorem foldl_sendCall (es : List CallEvent) (calls : List SendCall) :
    es.foldl (fun calls e => calls ++ (sendCall e).toList) calls =
      calls ++ es.filterMap sendCall := by
  induction es generalizing calls with
  | nil => exact (List.append_nil _).symm
  | cons e es ih =>
      rw [List.foldl_cons, ih, List.append_assoc]
      cases he : sendCall e with
      | none => simp [he]
      | some call => simp [he]

theorem inv_run {kind : CallKind} (hkind : kind ≠ .serverStreaming) {ctx : Option ClientContext}
    {id : StreamId} {es : List CallEvent} {u : SendRun}
    (h : machine.run (start kind ctx id) es = some u) : Inv u (es.filterMap sendCall) := by
  have hinv := Machine.run_invariant_foldl (M := machine) (I := Inv)
    (g := fun calls e => calls ++ (sendCall e).toList) (fun _ _ _ _ hu h => inv_step hu h) es _ u []
    (inv_start hkind ctx id) h
  rw [foldl_sendCall, List.nil_append] at hinv
  exact hinv

/-- Without a late write everything accepted is sent. -/
theorem sentExactly_of_noLateWrite {kind : CallKind} (hkind : kind ≠ .serverStreaming)
    (ctx : Option ClientContext) (id : StreamId) {calls : List SendCall}
    (hlate : NoLateWrite calls) : SentExactly kind ctx id calls := by
  intro es u hrun hcalls heof
  have hinv := inv_run hkind hrun
  rw [hcalls] at hinv
  obtain ⟨_, _, _, _, hsending⟩ := hinv hlate
  exact hsending.emitted_of_eof heof

/-! ## The schedule that drops a late write

Every write is sent at once: its closure runs and the generator is polled for the whole frame. So
`WritesDone` ends the data right away, and what is written behind it stays in its closure. -/

/-- A client that has sent everything. -/
structure Drained (u : SendRun) (x : RawClientWriterImpl) : Prop where
  client : ClientAt u.client x []
  pending : x.pending = []
  offset : x.offset = 0
  done : x.writesDone = false
  eof : u.eof = false
  sent : u.emitted = (u.accepted.map frameOf).flatten

theorem drained_start {kind : CallKind} (hkind : kind ≠ .serverStreaming)
    (ctx : Option ClientContext) (id : StreamId) :
    Drained (start kind ctx id) { RawClientWriterImpl.new with req := some id } := by
  refine ⟨?_, rfl, rfl, rfl, rfl, rfl⟩
  cases kind with
  | serverStreaming => exact absurd rfl hkind
  | clientStreaming => exact ⟨rfl, rfl, rfl, rfl, rfl, rfl⟩
  | bidi => exact ⟨rfl, rfl, rfl, rfl, rfl, rfl⟩

theorem step_poll {u : SendRun} {x : RawClientWriterImpl} {c : StreamingCall} {len : Nat}
    (heof : u.eof = false) (hx : u.client.call.writer = some x)
    (hc : u.client.step (.poll len) = some c) :
    u.step (.poll len) = some ({ u with client := c }.take (x.clientWriterGenerator len).2) := by
  rw [step, if_neg (by rw [heof]; decide), hx, Option.bind_some, hc]
  rfl

theorem step_runStrand {u : SendRun} {c : StreamingCall}
    (hc : u.client.step .runStrand = some c) :
    u.step .runStrand = some { u with client := c } := by
  simp only [step, hc, Option.map_some]

/-- A write, sent at once if it is accepted. -/
theorem Drained.write {u : SendRun} {x : RawClientWriterImpl} (hu : Drained u x) (p : Bytes) :
    ∃ es v y, machine.run u es = some v ∧ es.filterMap sendCall = [.write p] ∧ Drained v y := by
  rcases Nat.lt_or_ge p.length (2 ^ 32) with hp | hp
  · -- the write, its closure, and a poll for the whole frame
    obtain ⟨c₁, hc₁, hat₁⟩ := hu.client.write hp
    obtain ⟨c₂, hc₂, hat₂, _⟩ := hat₁.runEnqueue
    obtain ⟨c₃, hc₃, hat₃⟩ := hat₂.poll (frameOf p).length
    have hgen : RawClientWriterImpl.clientWriterGenerator
        { x with pending := x.pending ++ [frameOf p] } (frameOf p).length =
        ({ x with pending := [], offset := 0 }, .data (frameOf p)) := by
      simp [RawClientWriterImpl.clientWriterGenerator, hu.pending, hu.offset, sizeSub]
    have h₁ : u.step (.write p) =
        some { u with client := c₁, accepted := u.accepted ++ [p] } := by
      rw [step, hc₁, acceptedBy_ok hp]
      rfl
    have h₂ := step_runStrand (u := { u with client := c₁, accepted := u.accepted ++ [p] }) hc₂
    have h₃ := step_poll (u := { u with client := c₂, accepted := u.accepted ++ [p] }) hu.eof
      hat₂.writer hc₃
    have hsent : u.emitted ++ frameOf p = ((u.accepted ++ [p]).map frameOf).flatten := by
      rw [hu.sent]
      simp
    rw [hgen] at hat₃ h₃
    exact ⟨[.write p, .runStrand, .poll (frameOf p).length], _, _,
      Machine.run_cons_some.2 ⟨_, h₁, Machine.run_cons_some.2 ⟨_, h₂,
        Machine.run_cons_some.2 ⟨_, h₃, rfl⟩⟩⟩, rfl, ⟨hat₃, rfl, rfl, hu.done, hu.eof, hsent⟩⟩
  · -- a message that does not fit changes nothing
    refine ⟨[.write p], u, x, ?_, rfl, hu⟩
    have hstep : u.step (.write p) = some u := by
      simp [step, StreamingCall.step, hu.client.submitted, hu.client.writer, enqueue_refused hp,
        acceptedBy_refused hp]
    exact Machine.run_cons_some.2 ⟨u, hstep, rfl⟩

/-- Writes before `WritesDone`, each sent at once. -/
theorem Drained.writes {calls : List SendCall} (hcalls : SendCall.writesDone ∉ calls) {u : SendRun}
    {x : RawClientWriterImpl} (hu : Drained u x) :
    ∃ es v y, machine.run u es = some v ∧ es.filterMap sendCall = calls ∧ Drained v y := by
  induction calls generalizing u x with
  | nil => exact ⟨[], u, x, rfl, rfl, hu⟩
  | cons call calls ih =>
      rw [List.mem_cons, not_or] at hcalls
      cases call with
      | writesDone => exact absurd rfl hcalls.1
      | write p =>
          obtain ⟨es, v, y, hrun, hes, hv⟩ := hu.write p
          obtain ⟨fs, w, z, hrun', hfs, hw⟩ := ih hcalls.2 hv
          refine ⟨es ++ fs, w, z, Machine.run_append.2 ⟨v, hrun, hrun'⟩, ?_, hw⟩
          rw [List.filterMap_append, hes, hfs]
          rfl

/-- The data have ended, with everything sent that was accepted until then. -/
structure Ended (u : SendRun) (x : RawClientWriterImpl) (strand : List StrandTask) : Prop where
  client : ClientAt u.client x strand
  eof : u.eof = true

/-- `WritesDone` on a client that has sent everything ends the data. -/
theorem Drained.writesDone {u : SendRun} {x : RawClientWriterImpl} (hu : Drained u x) :
    ∃ v y, machine.run u [.writesDone, .runStrand, .poll 1] = some v ∧ Ended v y [] ∧
      v.emitted = (v.accepted.map frameOf).flatten := by
  obtain ⟨c₁, hc₁, hat₁⟩ := hu.client.writesDone
  obtain ⟨c₂, hc₂, hat₂, _⟩ := hat₁.runWritesDone
  obtain ⟨c₃, hc₃, hat₃⟩ := hat₂.poll 1
  have hgen : RawClientWriterImpl.clientWriterGenerator { x with writesDone := true } 1 =
      ({ x with writesDone := true }, .eof false) := by
    simp [RawClientWriterImpl.clientWriterGenerator, hu.pending]
  have h₁ : u.step .writesDone = some { u with client := c₁ } := by
    simp only [step, hc₁, Option.map_some]
  have h₂ := step_runStrand (u := { u with client := c₁ }) hc₂
  have h₃ := step_poll (u := { u with client := c₂ }) hu.eof hat₂.writer hc₃
  rw [hgen] at hat₃ h₃
  exact ⟨_, _, Machine.run_cons_some.2 ⟨_, h₁, Machine.run_cons_some.2 ⟨_, h₂,
    Machine.run_cons_some.2 ⟨_, h₃, rfl⟩⟩⟩, ⟨hat₃, rfl⟩, hu.sent⟩

/-- The payloads of the calls that are accepted. -/
def acceptedOf : List SendCall → List Bytes
  | [] => []
  | .write p :: calls => acceptedBy p ++ acceptedOf calls
  | .writesDone :: calls => acceptedOf calls

theorem mem_acceptedOf {calls : List SendCall} {p : Bytes} (hmem : SendCall.write p ∈ calls)
    (hp : p.length < 2 ^ 32) : p ∈ acceptedOf calls := by
  induction calls with
  | nil => cases hmem
  | cons call calls ih =>
      cases call with
      | writesDone =>
          exact ih ((List.mem_cons.1 hmem).resolve_left (by simp))
      | write q =>
          rcases List.mem_cons.1 hmem with heq | hmem
          · cases heq
            rw [acceptedOf, acceptedBy_ok hp]
            exact List.mem_append_left _ List.mem_cons_self
          · exact List.mem_append_right _ (ih hmem)

/-- Behind the end of the data the calls are accepted, and nothing is sent. -/
theorem Ended.calls (calls : List SendCall) {u : SendRun} {x : RawClientWriterImpl}
    {strand : List StrandTask} (hu : Ended u x strand) :
    ∃ v, machine.run u (calls.map SendCall.event) = some v ∧ v.eof = true ∧
      v.emitted = u.emitted ∧ v.accepted = u.accepted ++ acceptedOf calls := by
  induction calls generalizing u strand with
  | nil => exact ⟨u, rfl, hu.eof, rfl, (List.append_nil _).symm⟩
  | cons call calls ih =>
      cases call with
      | writesDone =>
          obtain ⟨c, hc, hat⟩ := hu.client.writesDone
          have hstep : u.step .writesDone = some { u with client := c } := by
            simp only [step, hc, Option.map_some]
          obtain ⟨v, hrun, heof, hemitted, haccepted⟩ :=
            ih (u := { u with client := c }) ⟨hat, hu.eof⟩
          exact ⟨v, Machine.run_cons_some.2 ⟨_, hstep, hrun⟩, heof, hemitted, haccepted⟩
      | write p =>
          have hwrite : ∃ c strand', u.client.step (.write p) = some c ∧ ClientAt c x strand' := by
            rcases Nat.lt_or_ge p.length (2 ^ 32) with hp | hp
            · obtain ⟨c, hc, hat⟩ := hu.client.write hp
              exact ⟨c, _, hc, hat⟩
            · refine ⟨u.client, strand, ?_, hu.client⟩
              simp [StreamingCall.step, hu.client.submitted, hu.client.writer, enqueue_refused hp]
          obtain ⟨c, strand', hc, hat⟩ := hwrite
          have hstep : u.step (.write p) =
              some { u with client := c, accepted := u.accepted ++ acceptedBy p } := by
            simp only [step, hc, Option.map_some]
          obtain ⟨v, hrun, heof, hemitted, haccepted⟩ :=
            ih (u := { u with client := c, accepted := u.accepted ++ acceptedBy p }) ⟨hat, hu.eof⟩
          refine ⟨v, Machine.run_cons_some.2 ⟨_, hstep, hrun⟩, heof, hemitted, ?_⟩
          rw [haccepted, acceptedOf, List.append_assoc]

theorem filterMap_event (calls : List SendCall) :
    (calls.map SendCall.event).filterMap sendCall = calls := by
  induction calls with
  | nil => rfl
  | cons call calls ih =>
      cases call with
      | write p => simp [SendCall.event, sendCall, ih]
      | writesDone => simp [SendCall.event, sendCall, ih]

/-- **A late write is accepted and dropped**, by the schedule that sends everything at once. -/
theorem not_sentExactly_of_late {kind : CallKind} (hkind : kind ≠ .serverStreaming)
    (ctx : Option ClientContext) (id : StreamId) {pre late : List SendCall} {p : Bytes}
    (hpre : SendCall.writesDone ∉ pre) (hmem : SendCall.write p ∈ late) (hp : p.length < 2 ^ 32) :
    ¬ SentExactly kind ctx id (pre ++ .writesDone :: late) := by
  intro hsent
  -- everything before `WritesDone` is sent, then the data end, then the rest is called
  obtain ⟨es, u, x, hrun, hes, hu⟩ := Drained.writes hpre (drained_start hkind ctx id)
  obtain ⟨v, y, hrun', hv, hemitted⟩ := hu.writesDone
  obtain ⟨w, hrun'', heof, hsame, haccepted⟩ := hv.calls late
  have hfull : machine.run (start kind ctx id)
      (es ++ ([.writesDone, .runStrand, .poll 1] ++ late.map SendCall.event)) = some w :=
    Machine.run_append.2 ⟨u, hrun, Machine.run_append.2 ⟨v, hrun', hrun''⟩⟩
  have hcalls : (es ++ ([CallEvent.writesDone, .runStrand, .poll 1] ++
      late.map SendCall.event)).filterMap sendCall = pre ++ .writesDone :: late := by
    rw [List.filterMap_append, hes, List.filterMap_append, filterMap_event]
    rfl
  have hframes := hsent _ w hfull hcalls heof
  -- the frames of the late writes would have to be empty
  rw [hsame, haccepted, hemitted, List.map_append, List.flatten_append,
    List.self_eq_append_right, List.flatten_eq_nil_iff] at hframes
  exact frameOf_ne_nil p (hframes _ (List.mem_map_of_mem (mem_acceptedOf hmem hp)))

theorem sentExactly_iff {kind : CallKind} (hkind : kind ≠ .serverStreaming)
    (ctx : Option ClientContext) (id : StreamId) (calls : List SendCall) :
    SentExactly kind ctx id calls ↔ NoLateWrite calls := by
  constructor
  · intro hsent pre mid post p hcalls
    by_contra hp
    -- the first `WritesDone` ends the data
    obtain ⟨front, back, hfront, hnot⟩ := List.eq_append_cons_of_mem
      (show SendCall.writesDone ∈ pre ++ [.writesDone] by simp)
    have hsplit : calls = front ++ .writesDone :: (back ++ (mid ++ .write p :: post)) := by
      calc calls = (pre ++ [.writesDone]) ++ (mid ++ .write p :: post) := by rw [hcalls]; simp
        _ = front ++ .writesDone :: (back ++ (mid ++ .write p :: post)) := by rw [hfront]; simp
    refine not_sentExactly_of_late hkind ctx id hnot (p := p) ?_ (by omega) (hsplit ▸ hsent)
    simp
  · exact sentExactly_of_noLateWrite hkind ctx id

/-- **An accepted write is sent**, however the closures and the polls are scheduled, and a write
behind `WritesDone` is refused, if and only if no message that fits in a frame is written behind
`WritesDone`. -/
theorem accepted_write_sent_iff {kind : CallKind} (hkind : kind ≠ .serverStreaming)
    (ctx : Option ClientContext) (id : StreamId) (calls : List SendCall) :
    SentExactly kind ctx id calls ∧ LateRefused calls ↔ NoLateWrite calls := by
  rw [sentExactly_iff hkind, lateRefused_iff, and_self]

theorem accepted_write_sent_iff_bidi :
    SentExactly .bidi none 1 [.write [7], .writesDone] ∧
        LateRefused [.write [7], .writesDone] ↔
      NoLateWrite [.write [7], .writesDone] :=
  accepted_write_sent_iff (by decide) none 1 _

/-- A message behind `WritesDone` is accepted, and the data end without it. -/
theorem late_write_dropped :
    ¬ SentExactly .clientStreaming none 1 [.writesDone, .write [7]] ∧
      ¬ LateRefused [.writesDone, .write [7]] := by
  refine ⟨?_, ?_⟩
  · have hlate : ¬ SentExactly .clientStreaming none 1
        ([] ++ SendCall.writesDone :: [SendCall.write [7]]) :=
      not_sentExactly_of_late (p := [7]) (by decide) none 1 (by simp) List.mem_cons_self
        (by decide)
    exact hlate
  · intro h
    exact absurd (h [] [] [] [7] rfl) (by decide)

end SendRun

end Rpcpio.Stream
