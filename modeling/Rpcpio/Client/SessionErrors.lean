import Rpcpio.Client.ChannelInvariant

/-!
# Errors of the session

The closure of `on_error` fails a connecting channel. On a connected one it only calls `FailAll`,
which empties the two queues: the state stays `kReady`, the calls in the two maps are not failed,
and further calls are submitted on the dead session. After a GOAWAY it goes through `OnConnected`,
which does not touch the maps either.
-/

set_option autoImplicit false

namespace Rpcpio.Client

open Rpcpio.Library Rpcpio.Protocol

namespace Channel

/-- Every call that was submitted has completed or has been failed. -/
def SubmittedSettled (c : Channel) : Prop :=
  ∀ (i : CallId) (call : ChannelCall), c.calls[i]? = some call → call.streamId.isSome = true →
    call.settled = true

/-- What a session error must leave behind: the channel has failed, no submitted call is open, and
in every run that follows both stay so and no call is submitted. -/
structure SessionDead (z : Zlib) (c : Channel) : Prop where
  failed : c.impl.state = .failed
  settled : c.SubmittedSettled
  after : ∀ es c', (machine z).run c es = some c' →
    c'.SubmittedSettled ∧ Frozen c c'

/-- `on_error` touches no call. -/
theorem calls_onError (c : Channel) (e : SessionError) : (c.onError e).calls = c.calls := by
  simp only [onError]
  split <;> rfl

theorem state_onError {c : Channel} (e : SessionError) (hs : c.impl.state ≠ .shutdown) :
    (c.onError e).impl.state = if c.impl.state = .ready then .ready else .failed := by
  simp only [onError]
  split
  · rename_i h
    exact absurd h hs
  · rename_i h
    simp [h, push]
  · rename_i h
    rw [if_neg h]
    rfl

/-- On a dead channel the submitted calls stay settled. -/
theorem submittedSettled_run {z : Zlib} {c c' : Channel} {es : List ChannelEvent} (h : c.Invariant)
    (hset : c.SubmittedSettled) (hfrozen : Frozen c c') (hrun : (machine z).run c es = some c') :
    c'.SubmittedSettled := by
  intro i call' hcall' hid
  obtain ⟨id, hid⟩ := Option.isSome_iff_exists.1 hid
  obtain ⟨call, hcall, hold⟩ := hfrozen.streams i call' hcall' id hid
  obtain ⟨last, hlast, hev⟩ := calls_run h hrun i call hcall
  rw [hcall', Option.some.injEq] at hlast
  subst hlast
  exact hev.settled (hset i call hcall (by rw [hold]; rfl))

/-- **A session error fails everything exactly if** it does not meet a connected channel and every
submitted call has completed. -/
theorem session_error_fails_everything_iff {z : Zlib} {configuration : Option Status}
    {es : List ChannelEvent} {c c' : Channel} {e : SessionError} {rest : List ChannelTask}
    {o : BuildOutcome} (hrun : (machine z).run (new configuration) es = some c)
    (hstrand : c.strand = .onError e :: rest) (hstate : c.impl.state ≠ .shutdown)
    (hstep : step z c (.runStrand o) = some c') :
    SessionDead z c' ↔ c.impl.state ≠ .ready ∧ c.SubmittedSettled := by
  have h := invariant_reachable hrun
  have h' := invariant_step h hstep
  have hc' : c' = { c with strand := rest }.onError e := runStrand_eq hstrand hstep
  have hcalls : c'.calls = c.calls := by
    rw [hc']
    exact calls_onError _ e
  have hstate' : c'.impl.state = if c.impl.state = .ready then .ready else .failed := by
    rw [hc']
    exact state_onError (c := { c with strand := rest }) e hstate
  have hsettled : c'.SubmittedSettled ↔ c.SubmittedSettled := by
    simp only [SubmittedSettled]
    rw [hcalls]
  constructor
  · intro hdead
    refine ⟨fun hready => ?_, hsettled.1 hdead.settled⟩
    have hfailed := hdead.failed
    rw [hstate', if_pos hready] at hfailed
    cases hfailed
  · rintro ⟨hready, hset⟩
    have hfailed : c'.impl.state = .failed := by
      rw [hstate', if_neg hready]
    have hset' := hsettled.2 hset
    refine ⟨hfailed, hset', fun es' c'' hrun' => ?_⟩
    have hfrozen := dead_run h' (Or.inl hfailed) hrun'
    exact ⟨submittedSettled_run h' hset' hfrozen hrun', hfrozen⟩

/-- The peer closes the connection. -/
def connectionReset : SessionError :=
  ⟨AsioError.connectionReset, text "Connection reset by peer", by decide⟩

/-- The connection cannot be established. -/
def connectionRefused : SessionError :=
  ⟨AsioError.connectionRefused, text "Connection refused", by decide⟩

/-- A `Connect` that the server refuses. -/
def refusedConnect : List ChannelEvent :=
  [.post .connect, .runStrand noStream, .sessionError connectionRefused]

theorem session_error_fails_everything_example :
    ∃ c c', (machine Zlib.none).run (new none) refusedConnect = some c ∧
      step Zlib.none c (.runStrand noStream) = some c' ∧
        (SessionDead Zlib.none c' ↔ c.impl.state ≠ .ready ∧ c.SubmittedSettled) :=
  ⟨_, _, rfl, rfl, @session_error_fails_everything_iff Zlib.none none refusedConnect _ _
    connectionRefused [] noStream rfl rfl (by decide) rfl⟩

/-- **An error on a connected channel leaves its calls open**: the two calls of `connectAndSubmit`
are still active, and the channel is still ready. -/
theorem not_session_error_fails_everything :
    ¬ ∀ (z : Zlib) (configuration : Option Status) (es : List ChannelEvent) (c c' : Channel)
        (e : SessionError) (rest : List ChannelTask) (o : BuildOutcome),
      (machine z).run (new configuration) es = some c → c.strand = .onError e :: rest →
        c.impl.state ≠ .shutdown → step z c (.runStrand o) = some c' → SessionDead z c' := by
  intro h
  have hdead := h Zlib.none none (connectAndSubmit ++ [.sessionError connectionReset]) _ _
    connectionReset [] noStream rfl rfl (by decide) rfl
  exact absurd hdead.failed (by decide)

end Channel

end Rpcpio.Client
