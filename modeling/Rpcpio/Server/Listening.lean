import Rpcpio.Server.ServerControl

/-!
# Whether a shut-down server stays listening

`Start` does not look at `shutdown_`, and `Shutdown` stops the transport only if it finds
`listening_` set. `http2_.stop()` runs at most once, and only after `listen_and_serve` (`Once`); but
if `Start` stores `listening_` after `Shutdown` has read it, nothing stops the listener any more
(`server_closed_iff`).
-/

set_option autoImplicit false

namespace Rpcpio.Server

open Rpcpio.Library Rpcpio.Protocol

/-! ## The transport is stopped at most once -/

/-- `http2_.stop()` is the next step. -/
def StopStep.pending : StopStep → Nat
  | .stop => 1
  | _ => 0

/-- The same for `CleanupFailedStart`. -/
def StartStep.pending : StartStep → Nat
  | .cleanup p => p.pending
  | _ => 0

/-- The same for `Shutdown` on a stopped `io_context`. -/
def ShutdownStep.pending : ShutdownStep → Nat
  | .stopTransport p => p.pending
  | _ => 0

/-- The same for `FinishShutdown`. -/
def FinishStep.pending : FinishStep → Nat
  | .stopTransport p => p.pending
  | _ => 0

namespace Control

/-- Where the one store of `listening_` is: still in the flag, with a thread that exchanged it and
goes on to `http2_.stop()`, or in the trace. -/
def opened (c : Control) : Nat :=
  (if c.listening then 1 else 0) + c.startStep.pending + c.shutdownStep.pending +
    c.finishStep.pending + c.trace.count .stop

/-- **Only the store of `listening_` adds to it.** -/
theorem opened_move {c c' : Control} {n : Nat} {b : Bool} {e : ServerEvent}
    (h : c.Move n b e c') :
    c'.opened ≤ c.opened ∨
      (c.startStep = .setListening ∧ c'.startStep.early = false ∧ c'.opened ≤ c.opened + 1) := by
  have hsame : ∀ {P : Prop}, c'.opened = c.opened → c'.opened ≤ c.opened ∨ P :=
    fun heq => Or.inl (Nat.le_of_eq heq)
  cases h with
  | store h =>
      right
      refine ⟨h, rfl, ?_⟩
      cases hl : c.listening <;> simp [opened, h, StartStep.pending, hl]
      omega
  -- `StopTransport` moves the store along: from the flag to the thread, from there to the trace
  | cleanup p h =>
      apply hsame
      cases p <;> cases hl : c.listening <;>
        simp [opened, stop, StopStep.next, StopStep.pending, StartStep.pending, h, hl] <;> omega
  | shutdownStop p h =>
      apply hsame
      cases p <;> cases hl : c.listening <;>
        simp [opened, stop, StopStep.next, StopStep.pending, ShutdownStep.pending, h, hl] <;> omega
  | finishStop p h =>
      apply hsame
      cases p <;> cases hl : c.listening <;>
        simp [opened, stop, StopStep.next, StopStep.pending, FinishStep.pending, h, hl] <;> omega
  | fail h =>
      apply hsame
      have hnone : c.startStep.pending = (StartStep.cleanup .cancelTimer).pending := by
        cases hs : c.startStep with
        | cleanup p => simp [hs, StartStep.canFail] at h
        | _ => rfl
      simp [opened, hnone]
  | stopListening h =>
      apply hsame
      cases hl : c.listening <;> simp [opened, h, hl, ShutdownStep.pending]
  | post h =>
      left
      simp [opened, h, ShutdownStep.pending, FinishStep.pending]
  | finish e timer h =>
      apply hsame
      rcases h with h | ⟨h, _⟩ <;> simp [opened, h, FinishStep.pending, StopStep.pending]
  | finishWait e h =>
      apply hsame
      rcases h with h | ⟨h, _⟩ <;> simp [opened, h, FinishStep.pending]
  | quiet e => exact hsame rfl
  | expire _ => exact hsame rfl
  | aborted h _ => exact hsame (by simp [opened, h, FinishStep.pending])
  | start h => exact hsame (by simp [opened, h, StartStep.pending])
  | resolved h => exact hsame (by simp [opened, h, StartStep.pending])
  | configured h => exact hsame (by simp [opened, h, StartStep.pending])
  | listen h => exact hsame (by simp [opened, h, StartStep.pending])
  | spawn left h => exact hsame (by simp [opened, h, StartStep.pending])
  | started h => exact hsame (by simp [opened, h, StartStep.pending])
  | waited h => exact hsame (by simp [opened, h, StartStep.pending])
  | shutdown h => exact hsame (by simp [opened, h, ShutdownStep.pending])
  | collect calls h => exact hsame (by simp [opened, h, ShutdownStep.pending])
  | cancelCall i rest h => exact hsame (by simp [opened, h, ShutdownStep.pending])
  | cancelled h => exact hsame (by simp [opened, h, ShutdownStep.pending])
  | listens h _ => exact hsame (by simp [opened, h, ShutdownStep.pending])
  | idle h _ => exact hsame (by simp [opened, h, ShutdownStep.pending])
  | stopped h _ => exact hsame (by simp [opened, h, ShutdownStep.pending, StopStep.pending])
  | running h _ => exact hsame (by simp [opened, h, ShutdownStep.pending])

/-- A step of `StopTransport` adds at most `stop` to the trace. -/
theorem stop_trace (c : Control) (p : StopStep) :
    ∃ es, (c.stop p).trace = c.trace ++ es ∧ es.length ≤ 1 ∧ .listen ∉ es := by
  cases p with
  | stop => exact ⟨_, rfl, by simp, by simp⟩
  | _ => exact ⟨[], by simp [stop], by simp, by simp⟩

/-- A step adds at most one entry to the trace, and `Start` adds `listen` right before its store. -/
theorem trace_move {c c' : Control} {n : Nat} {b : Bool} {e : ServerEvent} (h : c.Move n b e c') :
    ∃ es, c'.trace = c.trace ++ es ∧ es.length ≤ 1 ∧
      (.listen ∈ es → c.startStep = .listen) ∧ (c'.startStep = .setListening →
        .listen ∈ es ∨ c.startStep = .setListening) := by
  cases h with
  | listen h => exact ⟨_, rfl, by simp, fun _ => h, fun _ => Or.inl List.mem_cons_self⟩
  | cleanup p h =>
      obtain ⟨es, hes, hlen, hmem⟩ := c.stop_trace p
      refine ⟨es, hes, hlen, fun h => absurd h hmem, fun h => ?_⟩
      cases p <;> cases h
  | shutdownStop p h =>
      obtain ⟨es, hes, hlen, hmem⟩ := c.stop_trace p
      refine ⟨es, hes, hlen, fun h => absurd h hmem, fun h => Or.inr ?_⟩
      cases p <;> exact h
  | finishStop p h =>
      obtain ⟨es, hes, hlen, hmem⟩ := c.stop_trace p
      refine ⟨es, hes, hlen, fun h => absurd h hmem, fun h => Or.inr ?_⟩
      cases p <;> exact h
  | fail h => exact ⟨_, rfl, by simp, by simp, fun h => by cases h⟩
  | stopListening h =>
      refine ⟨_, rfl, ?_, ?_, Or.inr⟩
      · split <;> simp
      · split <;> simp
  | stopped h _ => exact ⟨_, rfl, by simp, by simp, Or.inr⟩
  | finish e timer h => exact ⟨_, rfl, by simp, by simp, Or.inr⟩
  | _ =>
      refine ⟨[], by simp, by simp, by simp, ?_⟩
      first
        | exact Or.inr
        | (intro h; cases h)

/-- `Start` does not go back before its store. -/
theorem early_move {c c' : Control} {n : Nat} {b : Bool} {e : ServerEvent} (h : c.Move n b e c')
    (hc : c'.startStep.early = true) : c.startStep.early = true := by
  cases h with
  | start h => rw [h]; rfl
  | resolved h => rw [h]; rfl
  | configured h => rw [h]; rfl
  | listen h => rw [h]; rfl
  | cleanup p h => cases p <;> simp [StopStep.next, StartStep.early] at hc
  | shutdownStop p h => cases p <;> exact hc
  | finishStop p h => cases p <;> exact hc
  | store h => cases hc
  | spawn left h => cases hc
  | started h => cases hc
  | fail h => cases hc
  | waited h => cases hc
  | _ => exact hc

/-- The transport is stopped at most once, after `listen_and_serve`: before the store of
`listening_` there is nothing to stop. -/
structure Once (c : Control) : Prop where
  total : c.opened ≤ 1
  early : c.startStep.early = true → c.opened = 0
  listened : c.startStep = .setListening ∨ 0 < c.opened → .listen ∈ c.trace
  order : NeverAfter (· = TransportEffect.stop) (· = .listen) c.trace

theorem once_move {c c' : Control} {n : Nat} {b : Bool} {e : ServerEvent} (hc : c.Once)
    (h : c.Move n b e c') : c'.Once := by
  obtain ⟨es, htrace, hlen, hlisten, hset⟩ := trace_move h
  have hopened := opened_move h
  have hnone : c.startStep = .setListening ∨ c.startStep = .listen → c.opened = 0 := by
    rintro (h | h) <;> exact hc.early (by rw [h]; rfl)
  refine ⟨?_, fun hearly => ?_, ?_, ?_⟩
  · rcases hopened with hle | ⟨hs, _, hle⟩
    · exact Nat.le_trans hle hc.total
    · rw [hnone (Or.inl hs)] at hle
      exact hle
  · rcases hopened with hle | ⟨_, hlate, _⟩
    · rw [hc.early (early_move h hearly)] at hle
      exact Nat.le_zero.1 hle
    · rw [hlate] at hearly
      cases hearly
  · rw [htrace]
    rintro (hs | hpos)
    · rcases hset hs with hmem | hs
      · exact List.mem_append_right _ hmem
      · exact List.mem_append_left _ (hc.listened (Or.inl hs))
    · apply List.mem_append_left
      apply hc.listened
      rcases hopened with hle | ⟨hs, _, _⟩
      · exact Or.inr (Nat.lt_of_lt_of_le hpos hle)
      · exact Or.inl hs
  · rw [htrace]
    apply neverAfter_append hc.order
    · match es, hlen with
      | [], _ => exact neverAfter_nil
      | [a], _ => exact List.pairwise_singleton _ a
    · rintro ⟨a, ha, rfl⟩ x hx rfl
      -- a `stop` in the trace means that the store is past
      have hzero := hnone (Or.inr (hlisten hx))
      have hcount : 0 < c.trace.count .stop := List.count_pos_iff.2 ha
      simp only [opened] at hzero
      omega

end Control

/-! ## Who will stop the transport -/

/-- The step is at or before `last`. -/
def StopStep.upTo : StopStep → StopStep → Bool
  | .exchange, .cancelTimer | .exchange, .exchange => true
  | .resetGuard, _ => true
  | _, _ => false

/-- `CleanupFailedStart` will execute `last`. -/
def StartStep.closing (last : StopStep) : StartStep → Bool
  | .cleanup p => last.upTo p
  | _ => false

/-- `Shutdown` will read `listening_`, post `FinishShutdown`, or execute `last`. -/
def ShutdownStep.closing (last : StopStep) : ShutdownStep → Bool
  | .returned => false
  | .stopTransport p => last.upTo p
  | _ => true

/-- `FinishShutdown` will run, or `last` is executed after it. -/
def FinishStep.closing (last : StopStep) (timer : Timer) : FinishStep → Bool
  | .posted => true
  | .waiting => decide (timer ≠ .idle)
  | .stopTransport p => last.upTo p
  | _ => false

namespace Control

/-- Some thread will execute `last`, or `Shutdown` will look at `listening_`. -/
def closing (last : StopStep) (c : Control) : Bool :=
  c.startStep.closing last || c.shutdownStep.closing last || c.finishStep.closing last c.timer

/-- The two steps of `StopTransport` that the statements are about. -/
def Tracked (last : StopStep) : Prop := last = .exchange ∨ last = .resetGuard

/-- What `last` does is done. -/
def Closed (last : StopStep) (c : Control) : Prop :=
  (last = .exchange → c.listening = false) ∧ (last = .resetGuard → c.workGuard = false)

theorem closed_of_eq {last : StopStep} {c c' : Control} (h : Closed last c)
    (hl : c'.listening = c.listening) (hg : c'.workGuard = c.workGuard) : Closed last c' :=
  ⟨fun he => hl.trans (h.1 he), fun he => hg.trans (h.2 he)⟩

/-- A thread at a step of `StopTransport` executes `last` now, or will. -/
theorem closing_stop {last p : StopStep} (hlast : Tracked last) (c : Control)
    (hp : last.upTo p = true) :
    Closed last (c.stop p) ∨ ∃ q, p.next c.listening = some q ∧ last.upTo q = true := by
  rcases hlast with rfl | rfl
  · cases p with
    | cancelTimer => exact Or.inr ⟨_, rfl, rfl⟩
    | exchange => exact Or.inl ⟨fun _ => rfl, fun h => by cases h⟩
    | stop => cases hp
    | resetGuard => cases hp
  · cases p with
    | cancelTimer => exact Or.inr ⟨_, rfl, rfl⟩
    | exchange => exact Or.inr ⟨_, rfl, rfl⟩
    | stop => exact Or.inr ⟨_, rfl, rfl⟩
    | resetGuard => exact Or.inl ⟨(fun h => by cases h), fun _ => rfl⟩

/-- A step of `StopTransport` after `last` leaves the timer alone. -/
theorem stop_timer {last p : StopStep} (hlast : Tracked last) (c : Control)
    (hp : last.upTo p = false) : (c.stop p).timer = c.timer := by
  cases p with
  | cancelTimer => rcases hlast with rfl | rfl <;> cases hp
  | _ => rfl

/-- **Whoever is to execute `last` does so, or leaves it to the next.** -/
theorem closing_move {last : StopStep} (hlast : Tracked last) {c c' : Control} {n : Nat} {b : Bool}
    {e : ServerEvent} (h : c.Move n b e c') (hc : c.closing last = true) :
    c'.closing last = true ∨ Closed last c' := by
  have hbegin : last.upTo .cancelTimer = true := by
    rcases hlast with rfl | rfl <;> rfl
  simp only [closing, Bool.or_eq_true] at hc ⊢
  cases h with
  | quiet e => exact Or.inl hc
  | cleanup p h =>
      cases hp : last.upTo p with
      | true =>
          -- `last` runs, or the next statement is still up to it
          rcases closing_stop hlast c hp with hdone | ⟨q, hq, hupTo⟩
          · exact Or.inr (closed_of_eq hdone rfl rfl)
          · left
            simp only [hq, Option.map_some, Option.getD_some]
            exact Or.inl (Or.inl hupTo)
      | false =>
          -- `Start` is past `last`: another procedure is to execute it
          left
          rw [stop_timer hlast c hp]
          rcases hc with (hc | hc) | hc
          · rw [h, StartStep.closing, hp] at hc
            cases hc
          · left
            right
            cases p <;> exact hc
          · right
            cases p <;> exact hc
  | shutdownStop p h =>
      cases hp : last.upTo p with
      | true =>
          rcases closing_stop hlast c hp with hdone | ⟨q, hq, hupTo⟩
          · exact Or.inr (closed_of_eq hdone rfl rfl)
          · left
            simp only [hq, Option.map_some, Option.getD_some]
            exact Or.inl (Or.inr hupTo)
      | false =>
          left
          rw [stop_timer hlast c hp]
          rcases hc with (hc | hc) | hc
          · left
            left
            cases p <;> exact hc
          · rw [h, ShutdownStep.closing, hp] at hc
            cases hc
          · right
            cases p <;> exact hc
  | finishStop p h =>
      cases hp : last.upTo p with
      | true =>
          rcases closing_stop hlast c hp with hdone | ⟨q, hq, hupTo⟩
          · exact Or.inr (closed_of_eq hdone rfl rfl)
          · left
            simp only [hq, Option.map_some, Option.getD_some]
            exact Or.inr hupTo
      | false =>
          left
          rcases hc with (hc | hc) | hc
          · left
            left
            cases p <;> exact hc
          · left
            right
            cases p <;> exact hc
          · rw [h, FinishStep.closing, hp] at hc
            cases hc
  | finish e timer h => exact Or.inl (Or.inr hbegin)
  | finishWait e h => exact Or.inl (Or.inr rfl)
  | fail h => exact Or.inl (Or.inl (Or.inl hbegin))
  | stopped h _ => exact Or.inl (Or.inl (Or.inr hbegin))
  | post h => exact Or.inl (Or.inr rfl)
  | idle h hl => exact Or.inr ⟨fun _ => hl, fun _ => rfl⟩
  | aborted h ht =>
      rcases hc with hc | hc
      · exact Or.inl (Or.inl hc)
      · simp [h, ht, FinishStep.closing] at hc
  | expire h =>
      left
      rcases hc with hc | hc
      · exact Or.inl hc
      · right
        cases hf : c.finishStep with
        | waiting => rfl
        | _ =>
            rw [hf] at hc
            exact hc
  | shutdown h => exact Or.inl (Or.inl (Or.inr rfl))
  | stopListening h => exact Or.inl (Or.inl (Or.inr rfl))
  | collect calls h => exact Or.inl (Or.inl (Or.inr rfl))
  | cancelCall i rest h => exact Or.inl (Or.inl (Or.inr rfl))
  | cancelled h => exact Or.inl (Or.inl (Or.inr rfl))
  | listens h _ => exact Or.inl (Or.inl (Or.inr rfl))
  | running h _ => exact Or.inl (Or.inl (Or.inr rfl))
  | start h | resolved h | configured h | listen h | store h | spawn _ h | started h | waited h =>
      left
      rw [h] at hc
      exact hc

/-- Only `Start` sets `listening_`. -/
theorem listening_move {c c' : Control} {n : Nat} {b : Bool} {e : ServerEvent}
    (h : c.Move n b e c') (hl : c'.listening = true) :
    c.listening = true ∨ (e = .startNext ∧ c.startStep = .setListening) := by
  cases h with
  | store h => exact Or.inr ⟨rfl, h⟩
  | cleanup p h => cases p <;> first | exact Or.inl hl | cases hl
  | shutdownStop p h => cases p <;> first | exact Or.inl hl | cases hl
  | finishStop p h => cases p <;> first | exact Or.inl hl | cases hl
  | _ => exact Or.inl hl

/-- Nothing engages the work guard. -/
theorem workGuard_move {c c' : Control} {n : Nat} {b : Bool} {e : ServerEvent}
    (h : c.Move n b e c') (hg : c'.workGuard = true) : c.workGuard = true := by
  cases h with
  | cleanup p h => cases p <;> first | exact hg | cases hg
  | shutdownStop p h => cases p <;> first | exact hg | cases hg
  | finishStop p h => cases p <;> first | exact hg | cases hg
  | idle h _ => cases hg
  | _ => exact hg

/-- Until `Shutdown` has read `listening_`, it will look after the listener. -/
theorem closing_of_unchecked {c : Control} (last : StopStep) (h : c.shutdownStep.unchecked = true) :
    c.closing last = true := by
  have hs : c.shutdownStep.closing last = true := by
    cases hsh : c.shutdownStep with
    | checkStopped => rfl
    | post => rfl
    | stopTransport p => simp [hsh, ShutdownStep.unchecked] at h
    | returned => simp [hsh, ShutdownStep.unchecked] at h
    | _ => rfl
  simp [closing, hs]

/-- **A store in time is looked after**: some thread will exchange `listening_`. -/
theorem listening_closing_move {c c' : Control} {n : Nat} {b : Bool} {e : ServerEvent}
    (hc : c.listening = true → c.closing .exchange = true) (h : c.Move n b e c')
    (hstore : e = .startNext → c.startStep = .setListening → c.shutdownStep.unchecked = true)
    (hl : c'.listening = true) : c'.closing .exchange = true := by
  have hold : c.closing .exchange = true := by
    rcases listening_move h hl with hl | ⟨he, hs⟩
    · exact hc hl
    · exact closing_of_unchecked _ (hstore he hs)
  rcases closing_move (Or.inl rfl) h hold with hclosing | hclosed
  · exact hclosing
  · rw [hclosed.1 rfl] at hl
    cases hl

/-- An engaged work guard is looked after. -/
theorem workGuard_closing_move {c c' : Control} {n : Nat} {b : Bool} {e : ServerEvent}
    (hc : c.workGuard = true → c.closing .resetGuard = true) (h : c.Move n b e c')
    (hg : c'.workGuard = true) : c'.closing .resetGuard = true := by
  rcases closing_move (Or.inr rfl) h (hc (workGuard_move h hg)) with hclosing | hclosed
  · exact hclosing
  · rw [hclosed.2 rfl] at hg
    cases hg

end Control

/-! ## A store that comes too late -/

/-- `Start` has stored `listening_` and has not failed. -/
def StartStep.serving : StartStep → Bool
  | .spawnThread _ | .returned true => true
  | _ => false

/-- `CleanupFailedStart` is past its exchange. -/
def StartStep.cleaned : StartStep → Bool
  | .cleanup .stop | .cleanup .resetGuard | .wait | .returned false => true
  | _ => false

namespace Control

/-- Before the store there is nothing for `Shutdown` to post. -/
structure Unstored (c : Control) : Prop where
  listening : c.listening = false
  finish : c.finishStep = .notPosted
  shutdown : c.shutdownStep.unchecked = true ∨ c.shutdownStep = .returned

/-- The store came after `Shutdown` had read `listening_`, and `Start` goes on. -/
structure Overlooked (c : Control) : Prop where
  listening : c.listening = true
  finish : c.finishStep = .notPosted
  shutdown : c.shutdownStep = .returned
  start : c.startStep.serving = true

theorem unstored_move {c c' : Control} {n : Nat} {b : Bool} {e : ServerEvent}
    (hc : c.startStep.early = true → c.Unstored) (h : c.Move n b e c')
    (hearly : c'.startStep.early = true) : c'.Unstored := by
  have hold := hc (early_move h hearly)
  obtain ⟨hl, hf, hs⟩ := hold
  cases h with
  | store h => cases hearly
  | spawn left h => cases hearly
  | started h => cases hearly
  | fail h => cases hearly
  | waited h => cases hearly
  | cleanup p h => cases p <;> cases hearly
  | shutdown h => exact ⟨hl, hf, Or.inl rfl⟩
  | stopListening h => exact ⟨hl, hf, Or.inl rfl⟩
  | collect calls h => exact ⟨hl, hf, Or.inl rfl⟩
  | cancelCall i rest h => exact ⟨hl, hf, Or.inl rfl⟩
  | cancelled h => exact ⟨hl, hf, Or.inl rfl⟩
  | listens h hlisten =>
      rw [hl] at hlisten
      cases hlisten
  | idle h _ => exact ⟨hl, hf, Or.inr rfl⟩
  | stopped h _ => simp [h, ShutdownStep.unchecked] at hs
  | running h _ => simp [h, ShutdownStep.unchecked] at hs
  | shutdownStop p h => simp [h, ShutdownStep.unchecked] at hs
  | post h => simp [h, ShutdownStep.unchecked] at hs
  | finish e timer h => rcases h with h | ⟨h, _⟩ <;> simp [h] at hf
  | finishWait e h => rcases h with h | ⟨h, _⟩ <;> simp [h] at hf
  | aborted h _ => simp [h] at hf
  | finishStop p h => simp [h] at hf
  | _ => exact ⟨hl, hf, hs⟩

/-- **An overlooked listener stays open**, unless a worker thread fails to start. -/
theorem overlooked_move {c c' : Control} {n : Nat} {b : Bool} {e : ServerEvent}
    (hc : c.Overlooked) (h : c.Move n b e c') (he : e ≠ .startFail) : c'.Overlooked := by
  obtain ⟨hl, hf, hs, hst⟩ := hc
  cases h with
  | quiet e => exact ⟨hl, hf, hs, hst⟩
  | expire _ => exact ⟨hl, hf, hs, hst⟩
  | spawn left h => exact ⟨hl, hf, hs, rfl⟩
  | started h => exact ⟨hl, hf, hs, rfl⟩
  | fail h => exact absurd rfl he
  | start h => simp [h, StartStep.serving] at hst
  | resolved h => simp [h, StartStep.serving] at hst
  | configured h => simp [h, StartStep.serving] at hst
  | listen h => simp [h, StartStep.serving] at hst
  | store h => simp [h, StartStep.serving] at hst
  | cleanup p h => simp [h, StartStep.serving] at hst
  | waited h => simp [h, StartStep.serving] at hst
  | finish e timer h => rcases h with h | ⟨h, _⟩ <;> simp [h] at hf
  | finishWait e h => rcases h with h | ⟨h, _⟩ <;> simp [h] at hf
  | aborted h _ => simp [h] at hf
  | finishStop p h => simp [h] at hf
  | shutdown h | stopListening h | collect _ h | cancelCall _ _ h | cancelled h | listens h _
  | idle h _ | stopped h _ | running h _ | shutdownStop _ h | post h => simp [h] at hs

/-- A failed `Start` that is past its exchange is not listening. -/
theorem cleaned_move {c c' : Control} {n : Nat} {b : Bool} {e : ServerEvent}
    (hc : c.startStep.cleaned = true → c.listening = false) (h : c.Move n b e c')
    (hclean : c'.startStep.cleaned = true) : c'.listening = false := by
  cases h with
  | cleanup p h =>
      cases p with
      | cancelTimer => cases hclean
      | exchange => rfl
      | stop => exact hc (by rw [h]; rfl)
      | resetGuard => exact hc (by rw [h]; rfl)
  | waited h => exact hc (by rw [h]; rfl)
  | shutdownStop p h => cases p <;> first | rfl | exact hc hclean
  | finishStop p h => cases p <;> first | rfl | exact hc hclean
  | start h | resolved h | configured h | listen h | store h | spawn _ h | started h | fail h =>
      cases hclean
  | _ => exact hc hclean

/-- A failed `Start` does not recover. -/
theorem failed_move {c c' : Control} {n : Nat} {b : Bool} {e : ServerEvent}
    (hc : c.startStep.failed = true) (h : c.Move n b e c') : c'.startStep.failed = true := by
  cases h with
  | cleanup p h => cases p <;> rfl
  | waited h => rfl
  | fail h => rfl
  | shutdownStop p h => cases p <;> exact hc
  | finishStop p h => cases p <;> exact hc
  | start h | resolved h | configured h | listen h | store h | spawn _ h | started h =>
      simp [h, StartStep.failed] at hc
  | _ => exact hc

end Control

/-! ## Runs -/

namespace ServerRun

/-- What holds of every reachable server. -/
structure Sound (s : ServerRun) : Prop where
  flagged : s.Flagged
  once : s.control.Once
  workGuard : s.workGuard = true → s.control.closing .resetGuard = true
  unstored : s.startStep.early = true → s.control.Unstored
  cleaned : s.startStep.cleaned = true → s.listening = false

theorem sound_new (impl : ServerImpl) (gracePeriod numThreads : Nat) (iocStopped : Bool) :
    (new impl gracePeriod numThreads iocStopped).Sound := by
  refine ⟨flagged_new _ _ _ _, ⟨Nat.zero_le 1, fun _ => rfl, ?_, neverAfter_nil⟩, fun _ => rfl,
    fun _ => ⟨rfl, rfl, Or.inl rfl⟩, fun _ => rfl⟩
  rintro (h | h) <;> cases h

theorem sound_step {z : Zlib} {s s' : ServerRun} {e : ServerEvent} (hs : s.Sound)
    (h : s.step z e = some s') : s'.Sound := by
  have hmove := step_control hs.flagged h
  exact ⟨flagged_step hs.flagged h, Control.once_move hs.once hmove,
    Control.workGuard_closing_move hs.workGuard hmove,
    Control.unstored_move hs.unstored hmove, Control.cleaned_move hs.cleaned hmove⟩

/-- `Start` and `Shutdown` have returned, and nothing of `FinishShutdown` is queued or running. -/
structure Drained (s : ServerRun) : Prop where
  start : ∃ ok, s.startStep = .returned ok
  shutdown : s.shutdownStep = .returned
  finish : s.finishStep = .notPosted ∨ s.finishStep = .done

theorem Drained.closing {s : ServerRun} (h : s.Drained) (last : StopStep) :
    s.control.closing last = false := by
  obtain ⟨ok, hstart⟩ := h.start
  rcases h.finish with hf | hf <;>
    simp [control, Control.closing, hstart, h.shutdown, hf, StartStep.closing,
      ShutdownStep.closing, FinishStep.closing]

/-- The condition on a step: `Start` stores `listening_` before `Shutdown` reads it for the second
time. -/
def StoredInTime (s : ServerRun) (e : ServerEvent) : Prop :=
  e = .startNext → s.startStep = .setListening → s.shutdownStep.unchecked = true

instance (s : ServerRun) (e : ServerEvent) : Decidable (s.StoredInTime e) :=
  inferInstanceAs (Decidable (_ → _ → _))

/-- After a store in time somebody looks after the listener. -/
theorem listening_closing {z : Zlib} {s s' : ServerRun} {es : List ServerEvent} (hs : s.Sound)
    (hlisten : s.listening = true → s.control.closing .exchange = true)
    (htime : (machine z).Along StoredInTime s es) (hrun : (machine z).run s es = some s')
    (hl : s'.listening = true) : s'.control.closing .exchange = true := by
  have hinv := Machine.run_invariant_along (M := machine z)
    (I := fun s => s.Sound ∧ (s.listening = true → s.control.closing .exchange = true))
    (fun t e t' ht hgood hst => ⟨sound_step ht.1 hst,
      Control.listening_closing_move ht.2 (step_control ht.1.flagged hst) hgood⟩)
    es s s' ⟨hs, hlisten⟩ htime hrun
  exact hinv.2 hl

/-- A `Start` that failed in the run has failed at its end. -/
theorem failed_of_startFail {z : Zlib} {s s' : ServerRun} {es : List ServerEvent} (hs : s.Sound)
    (hrun : (machine z).run s es = some s') (hfail : .startFail ∈ es) :
    s'.startStep.failed = true := by
  obtain ⟨pre, post, rfl⟩ := List.append_of_mem hfail
  obtain ⟨t, hpre, hrest⟩ := Machine.run_append.1 hrun
  obtain ⟨t', hstep, hpost⟩ := Machine.run_cons_some.1 hrest
  have hstep' : t.step z .startFail = some t' := hstep
  have ht := Machine.run_invariant (fun _ _ _ => sound_step) pre s t hs hpre
  have hfailed : t'.startStep.failed = true := by
    simp only [machine, step, startFail] at hstep
    split at hstep <;> cases hstep <;> rfl
  have hinv := Machine.run_invariant (M := machine z)
    (I := fun s => s.Sound ∧ s.startStep.failed = true)
    (fun _ _ _ hu hst => ⟨sound_step hu.1 hst,
      Control.failed_move hu.2 (step_control hu.1.flagged hst)⟩)
    post t' s' ⟨sound_step ht hstep', hfailed⟩ hpost
  exact hinv.2

/-- A store that comes too late leaves the listener open, if `Start` does not fail. -/
theorem overlooked_run {z : Zlib} {s s' : ServerRun} {es : List ServerEvent} (hs : s.Sound)
    (hlate : s.control.Overlooked) (hfail : .startFail ∉ es)
    (hrun : (machine z).run s es = some s') : s'.listening = true := by
  have hgood : (machine z).Along (fun _ e => e ≠ .startFail) s es := by
    apply Machine.along_of_forall
    rintro pre e post t rfl _ rfl
    exact hfail (List.mem_append_right _ List.mem_cons_self)
  have hinv := Machine.run_invariant_along (M := machine z)
    (I := fun s => s.Sound ∧ s.control.Overlooked)
    (fun _ _ _ hu he hst => ⟨sound_step hu.1 hst,
      Control.overlooked_move hu.2 (step_control hu.1.flagged hst) he⟩)
    es s s' ⟨hs, hlate⟩ hgood hrun
  exact hinv.2.listening

/-- **Once a server is drained, its listener is closed exactly if the store was in time or `Start`
failed.** -/
theorem Drained.listening_iff {z : Zlib} {s s' : ServerRun} {es : List ServerEvent} (hs : s.Sound)
    (hnew : s.listening = false) (hrun : (machine z).run s es = some s') (hdrained : s'.Drained) :
    s'.listening = false ↔ (machine z).Along StoredInTime s es ∨ .startFail ∈ es := by
  have hend := Machine.run_invariant (fun _ _ _ => sound_step) es s s' hs hrun
  constructor
  · intro hl
    by_contra hno
    obtain ⟨htime, hfail⟩ := not_or.1 hno
    apply htime
    apply Machine.along_of_forall
    intro pre e post t hes hpre he hset
    subst he hes
    obtain ⟨v, hv, hrest⟩ := Machine.run_append.1 hrun
    rw [hpre, Option.some.injEq] at hv
    subst hv
    obtain ⟨t', hstep, hpost⟩ := Machine.run_cons_some.1 hrest
    have hstep' : t.step z .startNext = some t' := hstep
    have ht := Machine.run_invariant (fun _ _ _ => sound_step) pre s t hs hpre
    have hun := ht.unstored (by rw [hset]; rfl)
    apply hun.shutdown.resolve_right
    intro hreturned
    -- the store comes after the second read of `listening_`
    have hlate : t'.control.Overlooked := by
      simp only [machine, step, startNext, hset, Option.some.injEq] at hstep
      subst hstep
      exact ⟨rfl, hun.finish, hreturned, rfl⟩
    have hopen := overlooked_run (sound_step ht hstep') hlate
      (fun h => hfail (List.mem_append_right _ (List.mem_cons_of_mem _ h))) hpost
    rw [hl] at hopen
    cases hopen
  · rintro (htime | hfail)
    · cases hl : s'.listening with
      | false => rfl
      | true =>
          have hclosing := listening_closing hs (fun h => by rw [hnew] at h; cases h) htime hrun hl
          rw [hdrained.closing] at hclosing
          cases hclosing
    · apply hend.cleaned
      have hfailed := failed_of_startFail hs hrun hfail
      obtain ⟨ok, hstart⟩ := hdrained.start
      rw [hstart] at hfailed ⊢
      cases ok with
      | false => rfl
      | true => cases hfailed

end ServerRun

/-- **A shut-down server stops listening, unless `Start` stores `listening_` too late.** In every
run of a server, `http2_.stop()` is executed at most once and only after `listen_and_serve`; and
once `Start` and `Shutdown` have returned and posted work is drained, the work guard is reset, and
`listening_` is false if and only if `Start` stored it before `Shutdown` read it for the second
time, or failed. -/
theorem server_closed_iff (z : Zlib) (impl : ServerImpl) (gracePeriod numThreads : Nat)
    (iocStopped : Bool) (es : List ServerEvent) (s : ServerRun)
    (hrun : (ServerRun.machine z).run (ServerRun.new impl gracePeriod numThreads iocStopped) es =
      some s) :
    (s.trace.count .stop ≤ 1 ∧
        ∀ pre post, s.trace = pre ++ TransportEffect.stop :: post → .listen ∈ pre) ∧
      (s.Drained → s.workGuard = false ∧ (s.listening = false ↔
        (ServerRun.machine z).Along ServerRun.StoredInTime
          (ServerRun.new impl gracePeriod numThreads iocStopped) es ∨ .startFail ∈ es)) := by
  have hnew := ServerRun.sound_new impl gracePeriod numThreads iocStopped
  have hsound := Machine.run_invariant (fun _ _ _ => ServerRun.sound_step) es _ s hnew hrun
  refine ⟨⟨?_, fun pre post htrace => ?_⟩, fun hdrained => ⟨?_, ?_⟩⟩
  · have htotal := hsound.once.total
    simp only [Control.opened] at htotal
    exact Nat.le_trans (Nat.le_add_left _ _) htotal
  · have hstop : 0 < s.trace.count .stop :=
      List.count_pos_iff.2 (htrace ▸ List.mem_append_right _ List.mem_cons_self)
    have hopened : 0 < s.control.opened := Nat.lt_of_lt_of_le hstop (Nat.le_add_left _ _)
    have hlisten : .listen ∈ s.trace := hsound.once.listened (Or.inr hopened)
    have horder : NeverAfter (· = TransportEffect.stop) (· = .listen) s.trace := hsound.once.order
    rw [htrace] at hlisten horder
    rcases List.mem_append.1 hlisten with hpre | hpost
    · exact hpre
    · rcases List.mem_cons.1 hpost with heq | hpost
      · cases heq
      · have hsuffix := (List.pairwise_append.1 horder).2.1
        exact absurd rfl ((List.pairwise_cons.1 hsuffix).1 _ hpost rfl)
  · cases hg : s.workGuard with
    | false => rfl
    | true =>
        have hclosing := hsound.workGuard hg
        rw [hdrained.closing] at hclosing
        cases hclosing
  · exact hdrained.listening_iff hnew rfl hrun

/-- `Shutdown` of a listening server without calls, and `FinishShutdown`. -/
def shutdownEvents : List ServerEvent :=
  .shutdown :: List.replicate 6 .shutdownNext ++ .runPosted :: List.replicate 4 .finishNext

/-- A server that starts and then shuts down stops its listener. -/
theorem server_closed_example :
    ∃ s, (ServerRun.machine Zlib.none).run (ServerRun.new unaryServer 30 1 false)
        (startEvents ++ shutdownEvents) = some s ∧
      s.trace.count .stop ≤ 1 ∧ s.listening = false := by
  have hclosed := server_closed_iff Zlib.none unaryServer 30 1 false
    (startEvents ++ shutdownEvents) _ rfl
  have hdrained := hclosed.2 ⟨⟨true, rfl⟩, rfl, Or.inr rfl⟩
  exact ⟨_, rfl, hclosed.1.1, hdrained.2.2 (Or.inl (by decide))⟩

/-- **A `Start` after `Shutdown` listens for good**: both return, nothing is posted, and
`listening_` is set. -/
theorem not_server_closed :
    ¬ ∀ (z : Zlib) (impl : ServerImpl) (gracePeriod numThreads : Nat) (es : List ServerEvent)
      (s : ServerRun),
      (ServerRun.machine z).run (ServerRun.new impl gracePeriod numThreads false) es = some s →
        s.Drained → s.listening = false := by
  intro h
  have hlistening := h Zlib.none unaryServer 30 1
    (.shutdown :: List.replicate 4 .shutdownNext ++ startEvents) _ rfl
    ⟨⟨true, rfl⟩, rfl, Or.inl rfl⟩
  cases hlistening

end Rpcpio.Server
