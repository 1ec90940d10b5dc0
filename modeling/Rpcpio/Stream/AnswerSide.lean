import Rpcpio.Stream.SingleAnswer

/-!
# The answer side of a client-streaming call

What a client-streaming call consists of from the reply on: the body the session drains, the trace
of the response, the direction of the connection and the client. The side is first waiting for the
reply, and then sends a message and the trailers behind it, or a status alone (`Sound`). Each event
of a call that the side sees is one lemma here; at rest the caller has the outcome of the handler's
result (`Sound.settled`).
-/

set_option autoImplicit false

namespace Rpcpio.Stream

open Rpcpio.Library Rpcpio.Protocol Rpcpio.Client Rpcpio.Server

/-- The answer side of a call: the body, the trace of the response, the direction of the connection
and the client. -/
structure AnswerSide where
  body : Option ResponseBody
  trace : List ResponseEffect
  down : Wire
  client : StreamingCall

namespace AnswerSide

/-- The reply is written. -/
def reply (x : AnswerSide) (r : Reply) : AnswerSide :=
  { x with body := r.body, trace := x.trace ++ r.effects }

/-- The session polls the body. -/
def poll (x : AnswerSide) (b : ResponseBody) (len : Nat) : AnswerSide :=
  { x with
    body := some (b.generate len).1
    trace := x.trace ++ (b.generate len).2.2.map .call
    down := x.down.take (b.generate len).2.1 }

/-! ## The invariant -/

/-- The closures of the answer on the strand: the queued chunks, and the trailers if they are
queued. -/
def tasksOf (k : Nat) (trailers : HeaderMap) (chunks : List Bytes) (trailerQueued : Bool) :
    List StrandTask :=
  chunks.map (.data k) ++ if trailerQueued then [.trailers trailers] else []

/-- Nothing was replied. -/
structure Waiting (k : Nat) (x : AnswerSide) : Prop where
  body : x.body = none
  trace : x.trace = []
  down : x.down = .idle
  client : AnswerAt k x.client .new

/-- The server's half of an answer with the message `q`: the body is drained, and then the trailers
are written. -/
structure Sending (q : Bytes) (head trailers : HeaderMap) (x : AnswerSide) : Prop where
  body : ∃ offset, x.body = some ⟨frameOf q, offset, trailers⟩ ∧ offset ≤ (frameOf q).length ∧
    x.down.emitted = (frameOf q).take offset ∧ (x.down.eof = true → offset = (frameOf q).length)
  deferred : x.down.deferred = false
  trace : x.trace = [.call (.writeHead 200 head), .call .endWith] ++
    if x.down.eof then [.call (.writeTrailer trailers)] else []

/-- The client's half: what was parsed was delivered, chunks are queued on the strand, the rest is
in flight; the final status is that of the trailers. -/
structure Arriving (k : Nat) (trailers : HeaderMap) (x : AnswerSide) (v : AnswerView)
    (parsed : Bytes) (chunks delivered : List Bytes) (trailerQueued : Bool) : Prop where
  client : AnswerAt k x.client v
  opened : v.closed = false
  ioc : v.ioc = []
  accepted : v.accepted = v.headersArrived
  tasks : v.tasks = tasksOf k trailers chunks trailerQueued
  received : x.down.emitted = parsed ++ (chunks.flatten ++ x.down.inFlight)
  receives : Receives (clientFormat k) (LpmReader.Represents k) parsed delivered v.lpm
  response : v.response = delivered.getLast?
  finish : v.finish = none ∨ v.finish = some (extractTrailerStatus trailers)
  arrived : v.trailersArrived = (trailerQueued || v.finish.isSome)
  queuedOnce : trailerQueued = true → v.finish = none
  complete : v.trailersArrived = true → x.down.eof = true ∧ x.down.inFlight = []
  done : v.finish.isSome = true → chunks = []

/-- An answer with a status alone: the header block has not arrived, its closure is queued, or the
closure has run. -/
structure Refused (k : Nat) (s : Status) (head : HeaderMap) (x : AnswerSide) (v : AnswerView) :
    Prop where
  body : x.body = none
  trace : x.trace = [.call (.writeHead 200 head), .call .endEmpty]
  down : x.down = .idle
  client : AnswerAt k x.client v
  verdict : headVerdict ⟨200, head⟩ = .trailersOnly s
  accepted : v.accepted = false
  tasks : v.tasks = []
  response : v.response = none
  stage : (v.headersArrived = false ∧ v.closed = false ∧ v.ioc = [] ∧ v.finish = none) ∨
    (v.headersArrived = true ∧ v.closed = false ∧ v.ioc = [.trailersOnly s] ∧ v.finish = none) ∨
    (v.headersArrived = true ∧ v.closed = true ∧ v.ioc = [] ∧ v.finish = some s)

/-- What holds of an answer side between two events, with the outcome of the handler's result once
it has returned. -/
inductive Sound (k : Nat) (x : AnswerSide) : Option (Status × Option Bytes) → Prop
  | waiting (h : Waiting k x) : Sound k x none
  | sending {q : Bytes} {head trailers : HeaderMap} {v : AnswerView} (parsed : Bytes)
      (chunks delivered : List Bytes) (trailerQueued : Bool)
      (hhead : headVerdict ⟨200, head⟩ = .accepted) (hs : Sending q head trailers x)
      (hr : Arriving k trailers x v parsed chunks delivered trailerQueued) :
      Sound k x (some (extractTrailerStatus trailers, some q))
  | refused {s : Status} {head : HeaderMap} {v : AnswerView} (h : Refused k s head x v) :
      Sound k x (some (s, none))

/-- The message of an outcome keeps the limits of the client. -/
def Small (k : Nat) (o : Option (Status × Option Bytes)) : Prop :=
  ∀ s q, o = some (s, some q) → q.length ≤ k ∧ q.length < 2 ^ 32

/-- An upper bound on the events of the side that are still to come. -/
def remaining (x : AnswerSide) : Nat :=
  3 * (x.body.elim 0 fun b => b.frame.length - b.offset) + (!x.down.eof).toNat +
    2 * x.down.inFlight.length + x.client.strand.length + 2 * (!x.client.headersArrived).toNat +
    2 * (!x.client.trailersArrived).toNat + x.client.ioc.length

section Events

variable {k : Nat} {x : AnswerSide} {o : Option (Status × Option Bytes)}

/-- Some view of the client holds in every state. -/
theorem Sound.client (h : Sound k x o) : ∃ v, AnswerAt k x.client v := by
  cases h with
  | waiting h => exact ⟨_, h.client⟩
  | sending _ _ _ _ hhead hs hr => exact ⟨_, hr.client⟩
  | refused h => exact ⟨_, h.client⟩

/-- The client's half of the side, where the rest stays as it is. -/
theorem Arriving.congr {trailers : HeaderMap} {x' : AnswerSide} {v : AnswerView} {parsed : Bytes}
    {chunks delivered : List Bytes} {trailerQueued : Bool}
    (h : Arriving k trailers x v parsed chunks delivered trailerQueued)
    (hc : AnswerAt k x'.client v) (hd : x'.down = x.down) :
    Arriving k trailers x' v parsed chunks delivered trailerQueued :=
  { h with
    client := hc
    received := hd ▸ h.received
    complete := hd ▸ h.complete }

/-- An event that leaves the answer's side of the client alone. -/
theorem Sound.congr (h : Sound k x o) {c : StreamingCall}
    (hc : ∀ v, AnswerAt k x.client v → AnswerAt k c v) : Sound k { x with client := c } o := by
  cases h with
  | waiting h => exact .waiting { h with client := hc _ h.client }
  | sending _ _ _ _ hhead hs hr =>
      exact .sending _ _ _ _ hhead { hs with } (hr.congr (hc _ hr.client) rfl)
  | refused h => exact .refused { h with client := hc _ h.client }

/-- **The handler's reply is written.** -/
theorem Sound.reply (h : Sound k x none) {r : Reply} {p : Status × Option Bytes}
    (hr : CarriesOutcome r p) : (x.reply r).Sound k (some p) := by
  cases h with
  | waiting h =>
      have hdown := h.down
      cases hr with
      | status hhead =>
          refine .refused ⟨rfl, ?_, hdown, h.client, hhead, rfl, rfl, rfl,
            Or.inl ⟨rfl, rfl, rfl, rfl⟩⟩
          simp [AnswerSide.reply, h.trace, Reply.effects, Reply.calls]
      | @message s q head trailers hhead ht =>
          subst ht
          refine .sending [] [] [] false hhead ⟨⟨0, rfl, Nat.zero_le _, ?_, ?_⟩, ?_, ?_⟩
            ⟨h.client, rfl, rfl, rfl, rfl, ?_, receives_new (LpmReader.new_represents k), rfl,
              Or.inl rfl, rfl, ?_, ?_, ?_⟩
          · simp [AnswerSide.reply, hdown, Wire.idle]
          · simp [AnswerSide.reply, hdown, Wire.idle]
          · simp [AnswerSide.reply, hdown, Wire.idle]
          · simp [AnswerSide.reply, hdown, Wire.idle, h.trace, Reply.effects, Reply.calls]
          · simp [AnswerSide.reply, hdown, Wire.idle]
          all_goals exact fun h => (by cases h)

/-! ### The server's end -/

/-- No trailers have arrived while the body is being read. -/
theorem Arriving.not_trailersArrived {trailers : HeaderMap} {v : AnswerView} {parsed : Bytes}
    {chunks delivered : List Bytes} {trailerQueued : Bool}
    (hr : Arriving k trailers x v parsed chunks delivered trailerQueued)
    (heof : x.down.eof = false) : v.trailersArrived = false := by
  cases hx : v.trailersArrived with
  | false => rfl
  | true => exact absurd (heof.symm.trans (hr.complete hx).1) (by simp)

section Polls

variable {q : Bytes} {head trailers : HeaderMap} {v : AnswerView} {parsed : Bytes}
  {chunks delivered : List Bytes} {trailerQueued : Bool} {offset len : Nat}

/-- A poll takes bytes of the frame. -/
theorem Sending.pollBytes (hs : Sending q head trailers x)
    (hr : Arriving k trailers x v parsed chunks delivered trailerQueued)
    (hbody : x.body = some ⟨frameOf q, offset, trailers⟩) (hlt : offset < (frameOf q).length)
    (hemit : x.down.emitted = (frameOf q).take offset) (heof : x.down.eof = false)
    (hlen : 0 < len) :
    Sending q head trailers (x.poll ⟨frameOf q, offset, trailers⟩ len) ∧
      Arriving k trailers (x.poll ⟨frameOf q, offset, trailers⟩ len) v parsed chunks delivered
        trailerQueued ∧
      (x.poll ⟨frameOf q, offset, trailers⟩ len).remaining < x.remaining := by
  have hgen := ResponseBody.generate_bytes (b := ⟨frameOf q, offset, trailers⟩) hlt len
  have hnext : x.poll ⟨frameOf q, offset, trailers⟩ len = { x with
      body := some ⟨frameOf q, offset + min ((frameOf q).length - offset) len, trailers⟩
      down := { x.down with
        emitted := x.down.emitted ++
          ((frameOf q).drop offset).take (min ((frameOf q).length - offset) len)
        inFlight := x.down.inFlight ++
          ((frameOf q).drop offset).take (min ((frameOf q).length - offset) len) } } := by
    simp only [AnswerSide.poll, hgen, List.map_nil, List.append_nil, Wire.take]
  rw [hnext]
  refine ⟨⟨⟨_, rfl, by omega, ?_, fun hx => ?_⟩, hs.deferred, hs.trace⟩,
    { hr with client := hr.client, received := ?_, complete := fun hx => ?_ }, ?_⟩
  · rw [hemit, List.take_add]
  · exact absurd (heof.symm.trans hx) (by simp)
  · rw [hr.received]
    simp only [List.append_assoc]
  · rw [hr.not_trailersArrived heof] at hx
    cases hx
  · simp only [remaining, hbody, Option.elim_some, List.length_append, List.length_take,
      List.length_drop]
    omega

/-- A poll behind the frame ends the body, with the trailers. -/
theorem Sending.pollEnd (hs : Sending q head trailers x)
    (hr : Arriving k trailers x v parsed chunks delivered trailerQueued)
    (hbody : x.body = some ⟨frameOf q, offset, trailers⟩) (hend : offset = (frameOf q).length)
    (hemit : x.down.emitted = (frameOf q).take offset) (heof : x.down.eof = false) :
    Sending q head trailers (x.poll ⟨frameOf q, offset, trailers⟩ len) ∧
      Arriving k trailers (x.poll ⟨frameOf q, offset, trailers⟩ len) v parsed chunks delivered
        trailerQueued ∧
      (x.poll ⟨frameOf q, offset, trailers⟩ len).remaining < x.remaining := by
  have htrace : x.trace = [.call (.writeHead 200 head), .call .endWith] := by
    simpa [heof] using hs.trace
  have hgen := ResponseBody.generate_end (b := ⟨frameOf q, offset, trailers⟩) hend len
  have hnext : x.poll ⟨frameOf q, offset, trailers⟩ len = { x with
      body := some ⟨frameOf q, offset, trailers⟩
      trace := x.trace ++ [.call (.writeTrailer trailers)]
      down := { x.down with eof := true } } := by
    simp only [AnswerSide.poll, hgen, List.map_cons, List.map_nil, Wire.take]
  rw [hnext]
  refine ⟨⟨⟨_, rfl, Nat.le_of_eq hend, hemit, fun _ => hend⟩, hs.deferred, ?_⟩,
    { hr with client := hr.client, received := hr.received, complete := fun hx => ?_ }, ?_⟩
  · rw [htrace]
    rfl
  · rw [hr.not_trailersArrived heof] at hx
    cases hx
  · simp only [remaining, hbody, Option.elim_some, heof, Bool.not_false, Bool.not_true,
      Bool.toNat_true, Bool.toNat_false]
    omega

end Polls

/-- **The body is polled**: a piece of the frame, or the end with the trailers. -/
theorem Sound.poll {b : ResponseBody} {len : Nat} (h : Sound k x o)
    (hpoll : x.down.canPoll len = true) (hb : x.body = some b) :
    (x.poll b len).Sound k o ∧ (x.poll b len).remaining < x.remaining := by
  simp only [Wire.canPoll, Bool.and_eq_true, decide_eq_true_eq, Bool.not_eq_true'] at hpoll
  obtain ⟨⟨hlen, _⟩, heof⟩ := hpoll
  cases h with
  | waiting h =>
      rw [h.body] at hb
      cases hb
  | refused h =>
      rw [h.body] at hb
      cases hb
  | @sending q head trailers v parsed chunks delivered trailerQueued hhead hs hr =>
      obtain ⟨offset, hbody, hle, hemit, _⟩ := hs.body
      rw [hbody, Option.some.injEq] at hb
      subst hb
      rcases Nat.lt_or_eq_of_le hle with hlt | hend
      · obtain ⟨hs', hr', hlt'⟩ := hs.pollBytes hr hbody hlt hemit heof hlen
        exact ⟨.sending _ _ _ _ hhead hs' hr', hlt'⟩
      · obtain ⟨hs', hr', hlt'⟩ := hs.pollEnd hr hbody hend hemit heof
        exact ⟨.sending _ _ _ _ hhead hs' hr', hlt'⟩

/-! ### The client's end -/

/-- What a header block does to the caller's own stream and to the rest of the answer. -/
theorem Sound.head {head : ResponseHead} {c : StreamingCall} (h : Sound k x o)
    (hhead : (writtenHeads x.trace).head? = some head)
    (hc : x.client.step (.response head) = some c) :
    Sound k { x with client := c } o ∧ remaining { x with client := c } < x.remaining ∧
      Keeps x.client c := by
  cases h with
  | waiting h =>
      rw [h.trace] at hhead
      cases hhead
  | @sending q head' trailers v parsed chunks delivered trailerQueued haccepted hs hr =>
      obtain rfl : head = ⟨200, head'⟩ := by
        rw [hs.trace] at hhead
        exact (Option.some.inj hhead).symm
      obtain ⟨hnew, hstrand, hat⟩ := hr.client.accept haccepted hc
      have hold := hr.client.headersArrived.trans hnew
      have harr : c.headersArrived = true := hat.headersArrived
      have htr : c.trailersArrived = x.client.trailersArrived :=
        hat.trailersArrived.trans hr.client.trailersArrived.symm
      have hioc : c.ioc = x.client.ioc := hat.ioc.trans hr.client.ioc.symm
      refine ⟨.sending _ _ _ _ haccepted { hs with } { hr with client := hat, accepted := rfl }, ?_,
        keeps_response (by simp [haccepted]) hc⟩
      simp only [remaining, hstrand, htr, hioc, hold, harr, Bool.not_true, Bool.not_false,
        Bool.toNat_true, Bool.toNat_false]
      omega
  | @refused s head' v h =>
      obtain rfl : head = ⟨200, head'⟩ := by
        rw [h.trace] at hhead
        exact (Option.some.inj hhead).symm
      obtain ⟨hnew, hstrand, hat⟩ := h.client.refuse h.verdict hc
      obtain ⟨_, hopen, hioc, hfin⟩ := h.stage.resolve_right (by
        rintro (⟨hh, _⟩ | ⟨hh, _⟩) <;> exact absurd (hnew.symm.trans hh) (by simp))
      have hold := h.client.headersArrived.trans hnew
      have harr : c.headersArrived = true := hat.headersArrived
      have htr : c.trailersArrived = x.client.trailersArrived :=
        hat.trailersArrived.trans h.client.trailersArrived.symm
      have hnext : c.ioc = [.trailersOnly s] := hat.ioc.trans (by rw [hioc]; rfl)
      have hbefore : x.client.ioc = [] := h.client.ioc.trans hioc
      refine ⟨.refused { h with
        client := hat
        accepted := rfl
        stage := Or.inr (Or.inl ⟨rfl, hopen, by rw [hioc]; rfl, hfin⟩) }, ?_,
        keeps_response (by simp [h.verdict]) hc⟩
      simp only [remaining, hstrand, htr, hnext, hbefore, hold, harr, Bool.not_true,
        Bool.not_false, Bool.toNat_true, Bool.toNat_false, List.length_singleton, List.length_nil]
      omega

/-- A chunk of the message arrives. -/
theorem Sound.deliver {n : Nat} {c : StreamingCall} (h : Sound k x o)
    (hg : (decide (0 < n) && decide (n ≤ x.down.inFlight.length)) = true)
    (hc : x.client.step (.data (x.down.inFlight.take n)) = some c) :
    Sound k { x with down := x.down.deliver n, client := c } o ∧
      remaining { x with down := x.down.deliver n, client := c } < x.remaining := by
  simp only [Bool.and_eq_true, decide_eq_true_eq] at hg
  obtain ⟨hn, hle⟩ := hg
  cases h with
  | waiting h =>
      rw [h.down] at hle
      exact absurd hle (by simp [Wire.idle]; omega)
  | refused h =>
      rw [h.down] at hle
      exact absurd hle (by simp [Wire.idle]; omega)
  | @sending q head trailers v parsed chunks delivered trailerQueued hhead hs hr =>
      have hne : x.down.inFlight.take n ≠ [] := by
        intro h0
        have hl := congrArg List.length h0
        rw [List.length_take, List.length_nil] at hl
        omega
      obtain ⟨hacc, rfl⟩ := hr.client.data hne hc
      have hopen : v.trailersArrived = false := by
        cases hx : v.trailersArrived with
        | false => rfl
        | true =>
            rw [(hr.complete hx).2] at hle
            exact absurd hle (by simp; omega)
      obtain ⟨rfl, hfin⟩ : trailerQueued = false ∧ v.finish = none := by
        have hor := hr.arrived
        rw [hopen] at hor
        simpa using hor.symm
      refine ⟨.sending _ (chunks ++ [x.down.inFlight.take n]) _ _ hhead { hs with }
        { hr with
          client := hr.client.post (Or.inl rfl), tasks := ?_, received := ?_,
          complete := fun hx => ?_, done := fun hx => ?_ }, ?_⟩
      · simp [hr.tasks, tasksOf, isDownloadTask]
      · refine hr.received.trans ?_
        simp [Wire.deliver]
      · exact absurd (hopen.symm.trans hx) (by simp)
      · rw [show Option.isSome _ = v.finish.isSome from rfl, hfin] at hx
        cases hx
      · simp only [remaining, StreamingCall.post, Wire.deliver, List.length_drop,
          List.length_append, List.length_singleton]
        omega

/-- The trailers arrive. -/
theorem Sound.trailer {t : HeaderMap} {c : StreamingCall} (h : Sound k x o)
    (hg : (x.down.eof && x.down.inFlight.isEmpty) = true)
    (ht : (tracedTrailers x.trace).head? = some t) (hc : x.client.step (.trailers t) = some c) :
    Sound k { x with client := c } o ∧ remaining { x with client := c } < x.remaining := by
  simp only [Bool.and_eq_true, List.isEmpty_iff] at hg
  obtain ⟨heof, hwire⟩ := hg
  cases h with
  | waiting h =>
      rw [h.trace] at ht
      cases ht
  | refused h =>
      rw [h.trace] at ht
      cases ht
  | @sending q head trailers v parsed chunks delivered trailerQueued hhead hs hr =>
      obtain rfl : t = trailers := by
        rw [hs.trace, heof] at ht
        exact (Option.some.inj ht).symm
      obtain ⟨_, hnew, rfl⟩ := hr.client.trailers hc
      obtain ⟨rfl, hfin⟩ : trailerQueued = false ∧ v.finish = none := by
        have hor := hr.arrived
        rw [hnew] at hor
        simpa using hor.symm
      have hat : AnswerAt k { x.client with trailersArrived := true }
          { v with trailersArrived := true } := { hr.client with trailersArrived := rfl }
      refine ⟨.sending _ _ _ true hhead { hs with }
        { hr with
          client := hat.post (Or.inl rfl), tasks := ?_, arrived := rfl,
          queuedOnce := fun _ => hfin, complete := fun _ => ⟨heof, hwire⟩ }, ?_⟩
      · simp [hr.tasks, tasksOf, isDownloadTask]
      · have hold := hr.client.trailersArrived.trans hnew
        simp only [remaining, StreamingCall.post, hold, List.length_append,
          List.length_singleton, Bool.not_true, Bool.not_false, Bool.toNat_true,
          Bool.toNat_false]
        omega

/-- A closure runs on the strand, and posts nothing. -/
theorem remaining_runStrand {c : StreamingCall} (hc : x.client.step .runStrand = some c)
    (hioc : c.ioc = x.client.ioc) : remaining { x with client := c } < x.remaining := by
  cases hstrand : x.client.strand with
  | nil => simp [StreamingCall.step, hstrand] at hc
  | cons t rest =>
      simp only [StreamingCall.step, hstrand, Option.some.injEq] at hc
      subst hc
      obtain ⟨hhead, htr⟩ := StreamingCall.arrived_runTask { x.client with strand := rest } t
      simp only [remaining, strand_runTask, hhead, htr, hioc, hstrand, List.length_cons]
      omega

/-- A message that keeps the limits fits into the format. -/
theorem Small.fits {s : Status} {q : Bytes} (h : Small k (some (s, some q))) :
    Fits (clientFormat k) [q] := by
  intro p hp
  obtain rfl := List.mem_singleton.1 hp
  exact messageFrame_clientFormat (h s p rfl).1 (h s p rfl).2

/-- The bytes received begin the frame of the message. -/
theorem Arriving.stream {q : Bytes} {head trailers : HeaderMap} {v : AnswerView} {parsed : Bytes}
    {chunks delivered : List Bytes} {trailerQueued : Bool} (hs : Sending q head trailers x)
    (hr : Arriving k trailers x v parsed chunks delivered trailerQueued) :
    ∃ rest, parsed ++ (chunks.flatten ++ (x.down.inFlight ++ rest)) = streamOf [q] ∧
      (x.down.eof = true → rest = []) := by
  obtain ⟨offset, _, _, hemit, hend⟩ := hs.body
  refine ⟨(frameOf q).drop offset, ?_, fun heof => by simp [hend heof]⟩
  have hframe := List.take_append_drop offset (frameOf q)
  rw [← hemit, hr.received] at hframe
  simpa using hframe

/-- A closure of the caller's own stream leaves the answer alone. -/
theorem Sound.runUpload {t : StrandTask} {rest : List StrandTask} (h : Sound k x o)
    (hstrand : x.client.strand = t :: rest) (ht : isDownloadTask t = false)
    (hstep : x.client.step .runStrand =
      some (StreamingCall.runTask { x.client with strand := rest } t)) :
    Sound k { x with client := StreamingCall.runTask { x.client with strand := rest } t } o ∧
      remaining { x with client := StreamingCall.runTask { x.client with strand := rest } t } <
        x.remaining := by
  obtain ⟨v₀, hat⟩ := h.client
  have hup : isUploadTask t = true :=
    (hat.tasks t (hstrand ▸ List.mem_cons_self)).resolve_left (by simp [ht])
  have hleave : ∀ v, AnswerAt k x.client v →
      AnswerAt k (StreamingCall.runTask { x.client with strand := rest } t) v := by
    intro v hv
    have htasks : rest.filter isDownloadTask = v.tasks := by
      rw [← hv.strand, hstrand, List.filter_cons_of_neg (by simp [ht])]
    have htail := (hv.tail hstrand).runUpload hup
    rwa [htasks] at htail
  exact ⟨h.congr hleave, remaining_runStrand hstep ((hleave _ hat).ioc.trans hat.ioc.symm)⟩

/-- A queued chunk is fed to the frame reader of the client. -/
theorem Arriving.runData {q : Bytes} {head trailers : HeaderMap} {v : AnswerView}
    {parsed chunk : Bytes} {chunks delivered : List Bytes} {trailerQueued : Bool}
    (hr : Arriving k trailers x v parsed (chunk :: chunks) delivered trailerQueued)
    (hs : Sending q head trailers x) (hfits : Fits (clientFormat k) [q]) {c : StreamingCall}
    (hc : AnswerAt k c { v with tasks := tasksOf k trailers chunks trailerQueued }) :
    ∃ v' delivered', v'.ioc = v.ioc ∧
      Arriving k trailers { x with client := c.runTask (.data k chunk) } v' (parsed ++ chunk)
        chunks delivered' trailerQueued := by
  obtain ⟨more, hstream, _⟩ := hr.stream hs
  have hopen : v.finish = none := by
    cases hf : v.finish with
    | none => rfl
    | some t => exact absurd (hr.done (by rw [hf]; rfl)) (by simp)
  have hcut : parsed ++ chunk ++ (chunks.flatten ++ (x.down.inFlight ++ more)) =
      streamOf [q] := by
    rw [← hstream]
    simp
  obtain ⟨hok, hreceives⟩ := hr.receives.feed hfits
    (fun got hgot => LpmReader.feed_agrees hgot _) hcut
  refine ⟨{ v with
    tasks := tasksOf k trailers chunks trailerQueued
    lpm := (v.lpm.feed k chunk).parser
    response := (v.lpm.feed k chunk).messages.getLast?.or v.response }, _, rfl, { hr with
      client := hc.runData hr.opened hok, tasks := rfl, received := ?_, receives := hreceives,
      response := ?_, done := fun hf => ?_ }⟩
  · rw [hr.received]
    simp
  · rw [List.getLast?_append, ← hr.response]
  · rw [show Option.isSome _ = v.finish.isSome from rfl, hopen] at hf
    cases hf

/-- The queued trailers publish their status. -/
theorem Arriving.runTrailers {trailers : HeaderMap} {v : AnswerView} {parsed : Bytes}
    {delivered : List Bytes} (hr : Arriving k trailers x v parsed [] delivered true)
    {c : StreamingCall} (hc : AnswerAt k c { v with tasks := [] }) :
    ∃ v', v'.ioc = v.ioc ∧
      Arriving k trailers { x with client := c.runTask (.trailers trailers) } v' parsed []
        delivered false := by
  have harr := hr.arrived
  rw [Bool.true_or] at harr
  exact ⟨{ v with tasks := [], finish := some (extractTrailerStatus trailers) }, rfl, { hr with
    client := hc.runTrailers hr.opened trailers, tasks := rfl, finish := Or.inr rfl,
    arrived := harr, queuedOnce := fun h => (by cases h), done := fun _ => rfl }⟩

/-- **A closure runs on the strand**: of the caller's own stream, or of the answer. -/
theorem Sound.runStrand {c : StreamingCall} (h : Sound k x o) (hsmall : Small k o)
    (hc : x.client.step .runStrand = some c) :
    Sound k { x with client := c } o ∧ remaining { x with client := c } < x.remaining := by
  have hstep := hc
  cases hstrand : x.client.strand with
  | nil => simp [StreamingCall.step, hstrand] at hc
  | cons t rest =>
      simp only [StreamingCall.step, hstrand, Option.some.injEq] at hc
      subst hc
      cases ht : isDownloadTask t with
      | false => exact h.runUpload hstrand ht hstep
      | true =>
          have hfilter : x.client.strand.filter isDownloadTask =
              t :: rest.filter isDownloadTask := by
            rw [hstrand, List.filter_cons_of_pos ht]
          cases h with
          | waiting h =>
              have hnil := h.client.strand
              rw [hfilter] at hnil
              cases hnil
          | refused h =>
              have hnil := h.client.strand
              rw [hfilter, h.tasks] at hnil
              cases hnil
          | @sending q head trailers v parsed chunks delivered trailerQueued hhead hs hr =>
              have htasks := hr.client.strand
              rw [hfilter, hr.tasks] at htasks
              have htail := hr.client.tail hstrand
              -- the first closure is that of a chunk, or of the trailers behind the last one
              cases chunks with
              | cons chunk chunks =>
                  obtain ⟨rfl, hrest⟩ : t = .data k chunk ∧ rest.filter isDownloadTask =
                      tasksOf k trailers chunks trailerQueued := List.cons.inj htasks
                  rw [hrest] at htail
                  obtain ⟨v', delivered', hioc, hr'⟩ := hr.runData hs hsmall.fits htail
                  exact ⟨.sending _ _ _ _ hhead { hs with } hr', remaining_runStrand hstep
                    (hr'.client.ioc.trans (hioc.trans hr.client.ioc.symm))⟩
              | nil =>
                  cases trailerQueued with
                  | false => cases htasks
                  | true =>
                      obtain ⟨rfl, hrest⟩ : t = .trailers trailers ∧
                          rest.filter isDownloadTask = [] := List.cons.inj htasks
                      rw [hrest] at htail
                      obtain ⟨v', hioc, hr'⟩ := hr.runTrailers htail
                      exact ⟨.sending _ _ _ _ hhead { hs with } hr', remaining_runStrand hstep
                        (hr'.client.ioc.trans (hioc.trans hr.client.ioc.symm))⟩

/-- The closure on the `io_context` runs. -/
theorem Sound.runIoc {i : Nat} {c : StreamingCall} (h : Sound k x o)
    (hc : x.client.step (.runIoc i) = some c) :
    Sound k { x with client := c } o ∧ remaining { x with client := c } < x.remaining := by
  have hposted : x.client.ioc ≠ [] := by
    intro hnil
    simp [StreamingCall.step, hnil] at hc
  cases h with
  | waiting h => exact absurd h.client.ioc hposted
  | sending _ _ _ _ hhead hs hr => exact absurd (hr.client.ioc.trans hr.ioc) hposted
  | @refused s head v h =>
      rcases h.stage with ⟨_, _, hioc, _⟩ | ⟨hhead, hopen, hioc, _⟩ | ⟨_, _, hioc, _⟩
      · exact absurd (h.client.ioc.trans hioc) hposted
      · obtain ⟨hstrand, hat⟩ := h.client.runIoc hopen hioc hc
        have hold := h.client.ioc.trans hioc
        have hnew : c.ioc = [] := hat.ioc
        have harr : c.headersArrived = x.client.headersArrived :=
          hat.headersArrived.trans h.client.headersArrived.symm
        have htr : c.trailersArrived = x.client.trailersArrived :=
          hat.trailersArrived.trans h.client.trailersArrived.symm
        refine ⟨.refused { h with
          client := hat, stage := Or.inr (Or.inr ⟨hhead, rfl, rfl, rfl⟩) }, ?_⟩
        simp only [remaining, hstrand, harr, htr, hold, hnew, List.length_singleton,
          List.length_nil]
        omega
      · exact absurd (h.client.ioc.trans hioc) hposted

end Events

/-! ## What the caller may rely on -/

/-- All of the message has been delivered once the final status is known. -/
theorem Arriving.complete_of_finish {k : Nat} {q : Bytes} {head trailers : HeaderMap}
    {x : AnswerSide} {v : AnswerView} {parsed : Bytes} {chunks delivered : List Bytes}
    {trailerQueued : Bool} (hfits : Fits (clientFormat k) [q]) (hs : Sending q head trailers x)
    (hr : Arriving k trailers x v parsed chunks delivered trailerQueued)
    (hfin : v.finish.isSome = true) : v.response = some q := by
  obtain ⟨heof, hwire⟩ := hr.complete (by rw [hr.arrived, hfin, Bool.or_true])
  obtain ⟨rest, hstream, hend⟩ := hr.stream hs
  rw [hr.done hfin, hwire, hend heof] at hstream
  have hall := (hr.receives.delivered hfits hstream).2 rfl
  rw [hr.response, hall]
  rfl

/-- What the caller learns of a call, in every state: no response that is not the handler's, and a
final status only together with the response, if there is one. -/
theorem Sound.learned {k : Nat} {x : AnswerSide} {o : Option (Status × Option Bytes)}
    (h : Sound k x o) (hsmall : Small k o) :
    ∃ w, x.client.call.writer = some w ∧
      (∀ q, singleResponse w = some q → ∃ s, o = some (s, some q)) ∧
      ∀ s, w.finish = some s → o = some (s, singleResponse w) := by
  obtain ⟨v, hat⟩ := h.client
  obtain ⟨w, hw, _⟩ := Option.map_eq_some_iff.1 hat.writer
  refine ⟨w, hw, ?_⟩
  cases h with
  | waiting h =>
      obtain ⟨hfin, hresp⟩ := h.client.view hw
      refine ⟨fun q hq => ?_, fun s hf => ?_⟩
      · rw [hresp] at hq
        cases hq
      · rw [hfin] at hf
        cases hf
  | @sending q head trailers v parsed chunks delivered trailerQueued hhead hs hr =>
      obtain ⟨hfin, hresp⟩ := hr.client.view hw
      refine ⟨fun p hp => ⟨extractTrailerStatus trailers, ?_⟩, fun s hf => ?_⟩
      · obtain ⟨rest, hstream, _⟩ := hr.stream hs
        have hpre := (hr.receives.delivered hsmall.fits hstream).1
        rw [hresp, hr.response] at hp
        have hmem := hpre.subset (List.mem_of_getLast? hp)
        rw [List.mem_singleton.1 hmem]
      · rw [hfin] at hf
        have hdone : v.finish.isSome = true := by rw [hf]; rfl
        rw [hresp, hr.complete_of_finish hsmall.fits hs hdone]
        rcases hr.finish with hnone | hsome
        · rw [hf] at hnone
          cases hnone
        · rw [hf] at hsome
          rw [Option.some.inj hsome]
  | @refused s head v h =>
      obtain ⟨hfin, hresp⟩ := h.client.view hw
      refine ⟨fun q hq => ?_, fun t hf => ?_⟩
      · rw [hresp, h.response] at hq
        cases hq
      · rw [hfin] at hf
        rw [hresp, h.response]
        rcases h.stage with ⟨_, _, _, hf'⟩ | ⟨_, _, _, hf'⟩ | ⟨_, _, _, hf'⟩
        · rw [hf] at hf'
          cases hf'
        · rw [hf] at hf'
          cases hf'
        · rw [hf] at hf'
          rw [Option.some.inj hf']

/-! ## At rest -/

/-- No event of the answer is left: the strand and the `io_context` are empty, the body waits or has
ended, and the header block, the bytes and the trailers have arrived. -/
structure Idle (x : AnswerSide) : Prop where
  strand : x.client.strand = []
  ioc : x.client.ioc = []
  generator : x.body.isSome = true → x.down.canPoll 1 = false
  head : ∀ head, (writtenHeads x.trace).head? = some head →
    x.client.step (.response head) = none
  bytes : x.down.inFlight ≠ [] → x.client.step (.data (x.down.inFlight.take 1)) = none
  trailers : x.down.eof = true → x.down.inFlight = [] → ∀ t,
    (tracedTrailers x.trace).head? = some t → x.client.step (.trailers t) = none

/-- At rest the header block has arrived, if one was written. -/
theorem Idle.headersArrived {k : Nat} {x : AnswerSide} {v : AnswerView} {head : ResponseHead}
    (hidle : x.Idle) (hat : AnswerAt k x.client v)
    (hfirst : (writtenHeads x.trace).head? = some head) : x.client.headersArrived = true := by
  have hnone := hidle.head head hfirst
  simpa [StreamingCall.step, hat.isOpen] using hnone

/-- At rest an answer with a message has told its status. -/
theorem Arriving.finished {k : Nat} {q : Bytes} {head trailers : HeaderMap} {x : AnswerSide}
    {v : AnswerView} {parsed : Bytes} {chunks delivered : List Bytes} {trailerQueued : Bool}
    (hs : Sending q head trailers x)
    (hr : Arriving k trailers x v parsed chunks delivered trailerQueued) (hidle : x.Idle) :
    v.finish.isSome = true := by
  obtain ⟨offset, hbody, _⟩ := hs.body
  have hfirst : (writtenHeads x.trace).head? = some ⟨200, head⟩ := by rw [hs.trace]; rfl
  have hacc : v.accepted = true := hr.accepted.trans
    (hr.client.headersArrived.symm.trans (hidle.headersArrived hr.client hfirst))
  have hlimit : x.client.dataLimit = some k := by rw [hr.client.limit, hacc]; rfl
  -- the body was drained, and its bytes have arrived
  have heof : x.down.eof = true := by
    have hpoll := hidle.generator (by rw [hbody]; rfl)
    exact (Wire.not_canPoll hpoll).resolve_left (by simp [hs.deferred])
  have hwire : x.down.inFlight = [] := by
    by_contra hne
    have hnone := hidle.bytes hne
    simp [StreamingCall.step, hlimit, hr.client.isOpen] at hnone
  -- the trailers have arrived, and the strand has run their closure
  have htrailers : v.trailersArrived = true := by
    have ht : (tracedTrailers x.trace).head? = some trailers := by
      rw [hs.trace, if_pos heof]
      rfl
    have hnone := hidle.trailers heof hwire trailers ht
    have harr : x.client.trailersArrived = true := by
      simpa [StreamingCall.step, hlimit, hr.client.isOpen] using hnone
    exact hr.client.trailersArrived.symm.trans harr
  have hqueued : trailerQueued = false := by
    have htasks := hr.client.strand
    rw [hidle.strand, hr.tasks] at htasks
    cases trailerQueued with
    | false => rfl
    | true => simp [tasksOf] at htasks
  have hor := hr.arrived
  rw [htrailers, hqueued, Bool.false_or] at hor
  exact hor.symm

/-- **At rest the caller has the outcome**, if the handler has returned. -/
theorem Sound.settled {k : Nat} {x : AnswerSide} {o : Option (Status × Option Bytes)}
    (h : Sound k x o) (hsmall : Small k o) (hidle : x.Idle) :
    ∃ w, x.client.call.writer = some w ∧ w.finish = o.map Prod.fst ∧
      singleResponse w = o.bind Prod.snd := by
  obtain ⟨v₀, hat⟩ := h.client
  obtain ⟨w, hw, _⟩ := Option.map_eq_some_iff.1 hat.writer
  refine ⟨w, hw, ?_⟩
  cases h with
  | waiting h =>
      obtain ⟨hfin, hresp⟩ := h.client.view hw
      exact ⟨hfin, hresp⟩
  | @sending q head trailers v parsed chunks delivered trailerQueued hhead hs hr =>
      obtain ⟨hfin, hresp⟩ := hr.client.view hw
      have hdone := Arriving.finished hs hr hidle
      refine ⟨?_, hresp.trans (hr.complete_of_finish hsmall.fits hs hdone)⟩
      rcases hr.finish with hnone | hsome
      · rw [hnone] at hdone
        cases hdone
      · exact hfin.trans hsome
  | @refused s head v h =>
      obtain ⟨hfin, hresp⟩ := h.client.view hw
      refine ⟨?_, hresp.trans h.response⟩
      have hfirst : (writtenHeads x.trace).head? = some ⟨200, head⟩ := by rw [h.trace]; rfl
      have harr := h.client.headersArrived.symm.trans (hidle.headersArrived h.client hfirst)
      have hioc := h.client.ioc.symm.trans hidle.ioc
      rcases h.stage with ⟨hnew, _⟩ | ⟨_, _, hposted, _⟩ | ⟨_, _, _, hf⟩
      · exact absurd (harr.symm.trans hnew) (by simp)
      · rw [hposted] at hioc
        cases hioc
      · exact hfin.trans hf

end AnswerSide

end Rpcpio.Stream
