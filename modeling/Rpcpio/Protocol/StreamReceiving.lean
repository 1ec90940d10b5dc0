import Rpcpio.Protocol.StreamParsing
import Rpcpio.Protocol.StreamQueue

/-!
# Receiving a stream of messages

The two halves of a receiver. `Receives` relates the bytes a parser was fed with to the messages it
delivered; on a prefix of a well-formed stream a chunk is parsed without error (`Receives.feed`),
and the whole stream delivers all messages (`Receives.all`). `Consumed` relates the messages pushed
to a queue to the results of the reads so far.
-/

set_option autoImplicit false

namespace Rpcpio.Protocol

open Rpcpio.Library

/-- The bytes of a stream of messages. -/
def streamOf (payloads : List Bytes) : Bytes := (payloads.map frameOf).flatten

theorem streamOf_append (ps qs : List Bytes) :
    streamOf (ps ++ qs) = streamOf ps ++ streamOf qs := by
  simp [streamOf]

@[simp] theorem streamOf_singleton (p : Bytes) : streamOf [p] = frameOf p := by
  simp [streamOf]

/-- The stream as frames of a format. -/
theorem streamOf_frames (payloads : List Bytes) :
    streamOf payloads =
      ((payloads.map (messageFrame 0)).map LengthPrefix.Frame.symbols).flatten := by
  rw [List.map_map]
  rfl

/-! ## Parsers -/

section Receives

variable {π : Type} (F : LengthPrefix UInt8 Status) (rep : π → Bytes → Prop)

/-- A parser that was fed `received` has delivered `delivered` and is at an unfinished frame. -/
def Receives (received : Bytes) (delivered : List Bytes) (p : π) : Prop :=
  ∃ got gs, F.scan (.pending []) received = (.pending got, gs) ∧ rep p got ∧
    gs.map LengthPrefix.Frame.payload = delivered

variable {F rep}

theorem receives_new {p : π} (h : rep p []) : Receives F rep [] [] p := ⟨[], [], rfl, h, rfl⟩

/-- The messages of a stream are frames of the format. -/
def Fits (F : LengthPrefix UInt8 Status) (payloads : List Bytes) : Prop :=
  ∀ p ∈ payloads, F.WellFormed (messageFrame 0 p)

/-- On a prefix of a stream, reading rejects nothing and completes the first messages. -/
theorem scan_streamOf {payloads : List Bytes} (hfits : Fits F payloads) {received rest : Bytes}
    (h : received ++ rest = streamOf payloads) :
    ∃ got gs, F.scan (.pending []) received = (.pending got, gs) ∧
      gs.map LengthPrefix.Frame.payload <+: payloads ∧
      (rest = [] → gs.map LengthPrefix.Frame.payload = payloads) := by
  have hall : ∀ f ∈ payloads.map (messageFrame 0), F.WellFormed f := by
    intro f hf
    obtain ⟨p, hp, rfl⟩ := List.mem_map.1 hf
    exact hfits p hp
  have hpay : (payloads.map (messageFrame 0)).map LengthPrefix.Frame.payload = payloads := by
    rw [List.map_map]
    exact List.map_id payloads
  have hscan := LengthPrefix.scan_flatten hall
  rw [← streamOf_frames, ← h, LengthPrefix.scan_append] at hscan
  obtain ⟨hstate, hframes⟩ := Prod.mk.inj hscan
  cases hr : F.scan (.pending []) received with
  | mk s gs =>
      rw [hr] at hstate hframes
      cases s with
      | rejected e =>
          rw [LengthPrefix.scan_rejected] at hstate
          cases hstate
      | pending got =>
          refine ⟨got, gs, rfl, ?_, fun hnil => ?_⟩
          · rw [← hpay, ← hframes]
            exact List.IsPrefix.map _ (List.prefix_append _ _)
          · rw [hnil, LengthPrefix.scan_nil, List.append_nil] at hframes
            rw [show gs = payloads.map (messageFrame 0) from hframes, hpay]

/-- **A chunk of a stream is parsed without error**, and its messages are delivered. -/
theorem Receives.feed {payloads : List Bytes} (hfits : Fits F payloads)
    {received chunk rest : Bytes}
    {delivered : List Bytes} {p : π} {r : FeedResult π} (hp : Receives F rep received delivered p)
    (hagrees : ∀ got, rep p got → Agrees rep (F.scan (.pending got) chunk) r)
    (h : received ++ chunk ++ rest = streamOf payloads) :
    r.status = Status.okStatus ∧
      Receives F rep (received ++ chunk) (delivered ++ r.messages) r.parser := by
  obtain ⟨got, gs, hscan, hrep, rfl⟩ := hp
  obtain ⟨got', gs', hscan', _, _⟩ := scan_streamOf hfits h
  obtain ⟨hmsg, hout⟩ := hagrees got hrep
  have happ := hscan'
  rw [LengthPrefix.scan_append, hscan] at happ
  obtain ⟨hstate, hframes⟩ := Prod.mk.inj happ
  rw [hstate] at hout
  refine ⟨hout.2, got', gs', hscan', hout.1, ?_⟩
  rw [← hframes, List.map_append, hmsg]

/-- Only messages of the stream are delivered, in order. -/
theorem Receives.delivered {payloads : List Bytes} (hfits : Fits F payloads)
    {received rest : Bytes} {delivered : List Bytes} {p : π}
    (hp : Receives F rep received delivered p) (h : received ++ rest = streamOf payloads) :
    delivered <+: payloads ∧ (rest = [] → delivered = payloads) := by
  obtain ⟨got, gs, hscan, _, rfl⟩ := hp
  obtain ⟨got', gs', hscan', hpre, hall⟩ := scan_streamOf hfits h
  obtain ⟨_, rfl⟩ := Prod.mk.inj (hscan.symm.trans hscan')
  exact ⟨hpre, hall⟩

end Receives

/-! ## Queues -/

/-- The reads of a queue that was pushed `delivered` have returned `results`: messages in order, and
then the end of the stream, over and over. -/
def Consumed (q : StreamMessageQueue) (delivered : List Bytes) (results : List PopResult) : Prop :=
  ∃ (ms : List Bytes) (k : Nat) (e : PopResult), results = ms.map .message ++ List.replicate k e ∧
    ms ++ q.buffer = delivered ∧ (k ≠ 0 → q.buffer = [] ∧ q.ending = some e)

theorem consumed_new : Consumed StreamMessageQueue.new [] [] :=
  ⟨[], 0, .eos, rfl, rfl, fun h => absurd rfl h⟩

namespace StreamMessageQueue

@[simp] theorem push_ending (q : StreamMessageQueue) (p : Bytes) :
    (q.push p).ending = q.ending := by
  simp [ending]

@[simp] theorem pop_ending (q : StreamMessageQueue) : q.pop.1.ending = q.ending := by
  simp [ending]

theorem setEos_ending {q : StreamMessageQueue} (h : q.error = none) :
    q.setEos.ending = some .eos := by
  simp [ending, h]

theorem setError_ending (q : StreamMessageQueue) (s : Status) :
    (q.setError s).ending = some (.error s) := by
  simp [ending]

theorem ending_eq_none {q : StreamMessageQueue} (h : q.ending = none) :
    q.error = none ∧ q.eos = false := by
  unfold ending at h
  split at h
  · cases h
  · rename_i he
    refine ⟨he, ?_⟩
    cases heos : q.eos with
    | false => rfl
    | true => simp [heos] at h

/-- The consumer does not sleep on a queue with an end. -/
theorem NoLostWakeup.of_ending {q : StreamMessageQueue} (h : q.NoLostWakeup)
    (hend : q.ending.isSome = true) : q.waiter ≠ .suspended := by
  refine h (Or.inr ?_)
  unfold ending at hend
  split at hend
  · rename_i e he
    exact Or.inl (by rw [he]; rfl)
  · apply Or.inr
    cases heos : q.eos with
    | true => rfl
    | false => simp [heos] at hend

end StreamMessageQueue

/-- Before its end a queue has returned messages only. -/
theorem Consumed.open {q : StreamMessageQueue} {delivered : List Bytes} {results : List PopResult}
    (h : Consumed q delivered results) (hopen : q.ending = none) :
    ∃ ms : List Bytes, results = ms.map .message ∧ ms ++ q.buffer = delivered := by
  obtain ⟨ms, k, e, hres, hbuf, hend⟩ := h
  refine ⟨ms, ?_, hbuf⟩
  cases k with
  | zero => simpa using hres
  | succ k =>
      have he := (hend (Nat.succ_ne_zero k)).2
      rw [hopen] at he
      cases he

/-- What was read of an open queue stays read when only its end changes. -/
theorem Consumed.congr {q q' : StreamMessageQueue} {delivered : List Bytes}
    {results : List PopResult} (h : Consumed q delivered results) (hopen : q.ending = none)
    (hbuf : q'.buffer = q.buffer) : Consumed q' delivered results := by
  obtain ⟨ms, hres, hms⟩ := h.open hopen
  exact ⟨ms, 0, .eos, by simpa using hres, by rw [hbuf, hms], fun h => absurd rfl h⟩

/-- Messages pushed before the end. -/
theorem Consumed.pushAll {q : StreamMessageQueue} {delivered : List Bytes}
    {results : List PopResult} (h : Consumed q delivered results) (hopen : q.ending = none)
    (msgs : List Bytes) :
    Consumed (msgs.foldl StreamMessageQueue.push q) (delivered ++ msgs) results ∧
      (msgs.foldl StreamMessageQueue.push q).ending = none := by
  induction msgs generalizing q delivered with
  | nil => exact ⟨by simpa using h, hopen⟩
  | cons m msgs ih =>
      have hpush : Consumed (q.push m) (delivered ++ [m]) results := by
        obtain ⟨ms, hres, hms⟩ := h.open hopen
        refine ⟨ms, 0, .eos, by simpa using hres, ?_, fun h => absurd rfl h⟩
        rw [StreamMessageQueue.push_buffer, ← List.append_assoc, hms]
      have h := ih hpush (by simpa using hopen)
      simpa [List.append_assoc] using h

theorem pushAll_noLostWakeup {q : StreamMessageQueue} (h : q.NoLostWakeup) (msgs : List Bytes) :
    (msgs.foldl StreamMessageQueue.push q).NoLostWakeup := by
  induction msgs generalizing q with
  | nil => exact h
  | cons m msgs ih => exact ih (q.push_noLostWakeup m)

/-- One pass of `Pop`. -/
theorem Consumed.pop {q : StreamMessageQueue} {delivered : List Bytes} {results : List PopResult}
    (h : Consumed q delivered results) :
    Consumed q.pop.1 delivered (results ++ q.pop.2.toList) := by
  obtain ⟨ms, k, e, hres, hbuf, hend⟩ := h
  rcases q.pop_result with ⟨msg, rest, hb, hpop, hrest⟩ | ⟨hb, hpop, hrest⟩
  · -- a message is left, so no end was reported yet
    have hk : k = 0 := by
      by_cases hk : k = 0
      · exact hk
      · rw [(hend hk).1] at hb
        cases hb
    subst hk
    refine ⟨ms ++ [msg], 0, .eos, ?_, ?_, fun h => absurd rfl h⟩
    · rw [hpop, hres]
      simp
    · rw [hrest, ← hbuf, hb]
      simp
  · have hms : ms ++ q.pop.1.buffer = delivered := by rw [hrest, ← hbuf, hb]
    cases he : q.ending with
    | none =>
        refine ⟨ms, k, e, ?_, hms, fun hk => ?_⟩
        · rw [hpop, he, hres]
          simp
        · rw [(hend hk).2] at he
          cases he
    | some e' =>
        refine ⟨ms, k + 1, e', ?_, hms, fun _ => ⟨hrest, by rw [q.pop_ending, he]⟩⟩
        rw [hpop, he, hres, List.replicate_succ', ← List.append_assoc]
        congr 2
        cases k with
        | zero => rfl
        | succ k =>
            have heq := (hend (Nat.succ_ne_zero k)).2
            rw [he, Option.some.injEq] at heq
            rw [heq]

/-- The results are messages of the stream in order, then its end. -/
theorem Consumed.results {q : StreamMessageQueue} {delivered payloads : List Bytes}
    {results : List PopResult} {e : PopResult} (h : Consumed q delivered results)
    (hpre : delivered <+: payloads)
    (hend : ∀ e', q.ending = some e' → e' = e ∧ delivered = payloads) :
    results <+: payloads.map .message ++ List.replicate results.length e := by
  obtain ⟨ms, k, e', hres, hbuf, hk⟩ := h
  have hms : ms.map PopResult.message <+: payloads.map .message := by
    refine List.IsPrefix.map _ (List.IsPrefix.trans ?_ hpre)
    rw [← hbuf]
    exact List.prefix_append _ _
  cases k with
  | zero =>
      rw [hres]
      simpa using List.IsPrefix.trans hms (List.prefix_append _ _)
  | succ k =>
      obtain ⟨hb, he⟩ := hk (Nat.succ_ne_zero k)
      obtain ⟨rfl, hdel⟩ := hend e' he
      have hall : ms = payloads := by rw [← hdel, ← hbuf, hb, List.append_nil]
      subst hall
      have hlen : k + 1 ≤ results.length := by rw [hres]; simp
      generalize results.length = n at hlen ⊢
      rw [hres, List.prefix_append_right_inj, List.prefix_replicate_iff]
      exact ⟨by simpa using hlen, by simp⟩

/-- A read of a queue with an end is answered. -/
theorem pop_isSome {q : StreamMessageQueue} (h : q.ending.isSome = true) :
    q.pop.2.isSome = true := by
  rcases q.pop_result with ⟨msg, rest, _, hpop, _⟩ | ⟨_, hpop, _⟩
  · rw [hpop]
    rfl
  · rw [hpop]
    exact h

end Rpcpio.Protocol
