import Rpcpio.Server.ServerContext

/-!
# Responding once

The part of a call state that decides when a response is written: `responded_`, `closed_`, and the
calls made on the response so far. `Responder` is its abstract form, and `ResponseMove` what an
event can do to it. A call state whose events are moves of its responder writes at most one
response, with `write_head` and `end` together, and none after `OnClose` (`ResponseInvariant.move`).
-/

set_option autoImplicit false

namespace Rpcpio.Server

open Rpcpio.Library Rpcpio.Protocol

/-- What a call does to its response; `closed` marks that `OnClose` has run. -/
inductive ResponseEffect where
  | call (c : ResponseCall)
  | closed
  deriving DecidableEq, Repr

/-- The calls `write_head` and `end`. -/
def ResponseEffect.isSend : ResponseEffect → Bool
  | .call (.writeHead _ _) => true
  | .call .endEmpty => true
  | .call .endWith => true
  | _ => false

/-- The calls of `write_head` and `end` in a trace. -/
def sends (tr : List ResponseEffect) : List ResponseEffect := tr.filter ResponseEffect.isSend

/-- The effects that send a reply. -/
def Reply.effects (r : Reply) : List ResponseEffect := r.calls.map .call

@[simp] theorem sends_append (tr es : List ResponseEffect) :
    sends (tr ++ es) = sends tr ++ sends es := List.filter_append ..

@[simp] theorem sends_effects (r : Reply) : sends r.effects = r.effects := by
  cases hb : r.body <;> simp [sends, Reply.effects, Reply.calls, ResponseEffect.isSend, hb]

theorem effects_ne_nil (r : Reply) : r.effects ≠ [] := by
  simp [Reply.effects, Reply.calls]

theorem closed_not_mem_effects (r : Reply) : ResponseEffect.closed ∉ r.effects := by
  simp [Reply.effects]

/-- The flags of a call state and its trace; `answered` says that a handler has returned while the
stream was open. -/
structure Responder where
  responded : Bool
  closed : Bool
  answered : Bool
  trace : List ResponseEffect
  deriving DecidableEq, Repr

/-- What an event does: nothing to the flags, send a reply unless one was sent, the same when a
handler returns, close the stream, or write the trailers of a body. -/
inductive ResponseMove where
  | stay
  | reply (r : Reply)
  | handlerReturned (r : Reply)
  | close
  | trailer (headers : HeaderMap)
  deriving DecidableEq, Repr

namespace Responder

/-- Send a reply unless one was sent. -/
def reply (g : Responder) (r : Reply) : Responder :=
  if g.responded then g else { g with responded := true, trace := g.trace ++ r.effects }

/-- `OnClose`. -/
def close (g : Responder) : Responder :=
  if g.closed then g
  else { g with closed := true, responded := true, trace := g.trace ++ [.closed] }

/-- The effect of a move. -/
def move (g : Responder) : ResponseMove → Responder
  | .stay => g
  | .reply r => g.reply r
  | .handlerReturned r => { g.reply r with answered := g.answered || !g.closed }
  | .close => g.close
  | .trailer headers => { g with trace := g.trace ++ [.call (.writeTrailer headers)] }

end Responder

/-- The effects of a member function that may send a reply. -/
def replyEffects : Option Reply → List ResponseEffect
  | none => []
  | some r => r.effects

/-- What a member function that may send a reply does to `responded_` and `closed_`: the flags
before and after, and the reply. -/
def Replies (responded closed : Bool) (after : Bool × Bool) (o : Option Reply) : Prop :=
  after.2 = closed ∧
    ((o = none ∧ after.1 = responded) ∨ (o.isSome = true ∧ responded = false ∧ after.1 = true))

/-- Such a member function is a move. -/
theorem Replies.move {g : Responder} {after : Bool × Bool} {o : Option Reply}
    (h : Replies g.responded g.closed after o) :
    ∃ m, ⟨after.1, after.2, g.answered, g.trace ++ replyEffects o⟩ = g.move m := by
  obtain ⟨hc, ⟨rfl, hr⟩ | ⟨ho, hr, hr'⟩⟩ := h
  · exact ⟨.stay, by simp [Responder.move, replyEffects, hc, hr]⟩
  · obtain ⟨r, rfl⟩ := Option.isSome_iff_exists.1 ho
    exact ⟨.reply r, by simp [Responder.move, Responder.reply, replyEffects, hc, hr, hr']⟩

/-- At most one response has been written, by `write_head` and then `end`. -/
def RespondsOnce (tr : List ResponseEffect) : Prop :=
  sends tr = [] ∨ ∃ r : Reply, sends tr = r.effects

/-- No `write_head` and no `end` stands behind `OnClose`. -/
abbrev SendsBeforeClose (tr : List ResponseEffect) : Prop :=
  NeverAfter (· = ResponseEffect.closed) (fun e => e.isSend = true) tr

structure ResponseInvariant (g : Responder) : Prop where
  once : RespondsOnce g.trace
  ordered : SendsBeforeClose g.trace
  unresponded : g.responded = false → sends g.trace = []
  written : g.responded = true → g.closed = false → sends g.trace ≠ []
  closed : g.closed = true → g.responded = true
  unclosed : g.closed = false → ResponseEffect.closed ∉ g.trace
  answered : g.answered = true → sends g.trace ≠ []

/-- A response is written exactly when none was, so not after `OnClose`. -/
theorem ResponseInvariant.reply {g : Responder} (hg : ResponseInvariant g) (r : Reply) :
    ResponseInvariant (g.reply r) := by
  simp only [Responder.reply]
  by_cases hr : g.responded = true
  · rw [if_pos hr]
    exact hg
  · rw [if_neg hr]
    have hr' : g.responded = false := by simpa using hr
    have hnone := hg.unresponded hr'
    have hopen : g.closed = false := by
      cases hc : g.closed with
      | false => rfl
      | true => exact absurd (hg.closed hc) hr
    have hsends : sends (g.trace ++ r.effects) = r.effects := by simp [hnone]
    refine ⟨Or.inr ⟨r, hsends⟩, ?_, fun h => (by cases h), fun _ _ => ?_, fun _ => rfl, fun _ => ?_,
      fun _ => ?_⟩
    · refine neverAfter_append hg.ordered (neverAfter_of_forall_not_left fun e he hcl => ?_) ?_
      · exact closed_not_mem_effects r (hcl ▸ he)
      · rintro ⟨e, he, rfl⟩
        exact absurd he (hg.unclosed hopen)
    · rw [hsends]
      exact effects_ne_nil r
    · intro hmem
      rcases List.mem_append.1 hmem with hmem | hmem
      · exact hg.unclosed hopen hmem
      · exact closed_not_mem_effects r hmem
    · rw [hsends]
      exact effects_ne_nil r

/-- After a reply an open stream has one written. -/
theorem ResponseInvariant.reply_written {g : Responder} (hg : ResponseInvariant g) (r : Reply)
    (hopen : g.closed = false) : sends (g.reply r).trace ≠ [] := by
  have hclosed : (g.reply r).closed = false := by
    simp only [Responder.reply]
    split <;> exact hopen
  refine (hg.reply r).written ?_ hclosed
  simp only [Responder.reply]
  split
  · assumption
  · rfl

/-- A reply leaves what was sent before. -/
theorem sends_reply {g : Responder} (r : Reply) (h : sends g.trace ≠ []) :
    sends (g.reply r).trace ≠ [] := by
  simp only [Responder.reply]
  split
  · exact h
  · simp [effects_ne_nil]

theorem ResponseInvariant.close {g : Responder} (hg : ResponseInvariant g) :
    ResponseInvariant g.close := by
  simp only [Responder.close]
  by_cases hc : g.closed = true
  · rw [if_pos hc]
    exact hg
  · rw [if_neg hc]
    have hsends : sends (g.trace ++ [.closed]) = sends g.trace := by
      simp [sends, ResponseEffect.isSend]
    refine ⟨?_, ?_, fun h => (by cases h), fun _ h => (by cases h), fun _ => rfl,
      fun h => (by cases h), ?_⟩
    · rcases hg.once with h | ⟨r, h⟩
      · exact Or.inl (hsends.trans h)
      · exact Or.inr ⟨r, hsends.trans h⟩
    · refine neverAfter_append hg.ordered (neverAfter_of_forall_not fun e he => ?_) fun _ e he => ?_
      all_goals
        rw [List.mem_singleton] at he
        subst he
        simp [ResponseEffect.isSend]
    · intro h
      rw [hsends]
      exact hg.answered h

/-- **Every move keeps the response single, paired and before `OnClose`.** -/
theorem ResponseInvariant.move {g : Responder} (hg : ResponseInvariant g) (m : ResponseMove) :
    ResponseInvariant (g.move m) := by
  cases m with
  | stay => exact hg
  | reply r => exact hg.reply r
  | handlerReturned r =>
      have hr := hg.reply r
      refine ⟨hr.once, hr.ordered, hr.unresponded, hr.written, hr.closed, hr.unclosed, fun h => ?_⟩
      rcases Bool.or_eq_true_iff.1 h with h | h
      · exact sends_reply r (hg.answered h)
      · exact hg.reply_written r (by simpa using h)
  | close => exact hg.close
  | trailer headers =>
      have hsends : sends (g.trace ++ [.call (.writeTrailer headers)]) = sends g.trace := by
        simp [sends, ResponseEffect.isSend]
      refine ⟨?_, ?_, ?_, ?_, hg.closed, ?_, ?_⟩
      · rcases hg.once with h | ⟨r, h⟩
        · exact Or.inl (hsends.trans h)
        · exact Or.inr ⟨r, hsends.trans h⟩
      · refine neverAfter_append hg.ordered (neverAfter_of_forall_not fun e he => ?_)
          fun _ e he => ?_
        all_goals
          rw [List.mem_singleton] at he
          subst he
          simp [ResponseEffect.isSend]
      · exact fun h => hsends.trans (hg.unresponded h)
      · exact fun h hc => by rw [Responder.move, hsends]; exact hg.written h hc
      · intro hc hmem
        rcases List.mem_append.1 hmem with hmem | hmem
        · exact hg.unclosed hc hmem
        · rw [List.mem_singleton] at hmem
          cases hmem
      · exact fun h => by rw [Responder.move, hsends]; exact hg.answered h

/-- A call before its first event. -/
def Responder.initial : Responder := ⟨false, false, false, []⟩

theorem responseInvariant_initial : ResponseInvariant Responder.initial :=
  ⟨Or.inl rfl, neverAfter_nil, fun _ => rfl, fun h => (by cases h), fun h => (by cases h),
    fun _ => List.not_mem_nil, fun h => (by cases h)⟩

end Rpcpio.Server
