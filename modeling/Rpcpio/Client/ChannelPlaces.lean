import Rpcpio.Client.ChannelLedger

/-!
# The places of a channel

The ledger and the `Connect` callbacks of a channel are read off its queues, its strand and its
stack. Each function of the channel gets one lemma about them; `step_advance` and `step_waiters`
assemble these for an event.
-/

set_option autoImplicit false

namespace Rpcpio.Client

open Rpcpio.Library Rpcpio.Protocol

/-- The call that a submit closure holds. -/
def ChannelTask.calls : ChannelTask → List CallId
  | .submit i => [i]
  | _ => []

/-- The callback that the closure of `Connect` holds. -/
def ChannelTask.waiters : ChannelTask → List WaiterId
  | .connect w => [w]
  | _ => []

/-- The calls that a loop has still to submit or to refuse. -/
def Frame.calls : Frame → List CallId
  | .submitCalls ids => ids
  | .runGeneric ids => ids
  | .completePending ids _ => ids
  | _ => []

/-- The callbacks that a loop has still to invoke. -/
def Frame.waiters : Frame → List WaiterId
  | .notifyWaiters ws _ => ws
  | _ => []

namespace Channel

/-- The calls that are neither refused nor submitted: in closures on the strand, in loops, and in
the two queues. -/
def queued (c : Channel) : List CallId :=
  c.strand.flatMap ChannelTask.calls ++ (c.stack.flatMap Frame.calls ++
    (c.impl.pendingCalls ++ c.impl.pendingGenericCalls))

/-- The ledger of a channel. -/
def ledger (c : Channel) : Ledger :=
  ⟨c.calls, c.queued, c.impl.activeCalls, c.impl.activeStreamingCalls⟩

/-- The ledger with some waiting calls in hand. -/
def transit (c : Channel) (ids : List CallId) : Ledger :=
  ⟨c.calls, ids ++ c.queued, c.impl.activeCalls, c.impl.activeStreamingCalls⟩

/-- The `Connect` callbacks, invoked ones included. -/
def heldWaiters (c : Channel) : List WaiterId :=
  c.strand.flatMap ChannelTask.waiters ++ (c.stack.flatMap Frame.waiters ++
    (c.impl.connectWaiters ++ c.notified.map Prod.fst))

/-! ## Functions that move no call -/

theorem transit_startConnecting (c : Channel) (ids : List CallId) :
    c.startConnecting.transit ids = c.transit ids := by
  simp only [startConnecting, doConnect]
  split
  · split <;> rfl
  · rfl

theorem transit_connect (c : Channel) (w : WaiterId) (ids : List CallId) :
    (c.connect w).transit ids = c.transit ids := by
  simp only [connect]
  split
  · rfl
  · rfl
  · rfl
  · exact transit_startConnecting _ ids
  · exact transit_startConnecting _ ids

theorem transit_doShutdown (c : Channel) (ids : List CallId) :
    c.doShutdown.transit ids = c.transit ids := by
  simp only [doShutdown]
  split <;> rfl

theorem transit_onConnect (c : Channel) (ids : List CallId) :
    c.onConnect.transit ids = c.transit ids := by
  simp only [onConnect]
  split <;> rfl

theorem transit_onError (c : Channel) (e : SessionError) (ids : List CallId) :
    (c.onError e).transit ids = c.transit ids := by
  simp only [onError]
  split <;> rfl

/-! ## Functions that move calls -/

/-- Two ledgers that differ in the order of the queues. -/
theorem advance_perm {L : Ledger} {c : Channel} (h : L.Sound) (hcalls : c.calls = L.calls)
    (hq : c.queued.Perm L.queued) (ha : c.impl.activeCalls = L.activeCalls)
    (hb : c.impl.activeStreamingCalls = L.activeStreamingCalls) :
    Ledger.Advance False L c.ledger := by
  have hadv := h.requeue hq
  rwa [show c.ledger = { L with queued := c.queued } by
    rw [ledger, hcalls, ha, hb]]

theorem advance_refuse {c : Channel} {i : CallId} (s : Status) (h : (c.transit [i]).Sound) :
    Ledger.Advance False (c.transit [i]) (c.refuse i s).ledger := by
  apply h.answer (q := c.queued) (List.Perm.refl _)
  intro call _ hw hs
  exact ⟨call.evolves_refuse s, hw.refuse hs s, ChannelCall.streamId_refuse s,
    call.settled_refuse s⟩

/-- A new key is inserted. -/
theorem emplace_of_fresh {m : List (StreamId × CallId)} {id : StreamId} {i : CallId}
    (h : ∀ p ∈ m, p.1 ≠ id) : emplace m id i = m ++ [(id, i)] := by
  simp only [emplace]
  apply if_neg
  intro hmem
  obtain ⟨p, hp, hid⟩ := List.mem_map.1 hmem
  exact h p hp hid

theorem flatMap_handOver (call : ChannelCall) (stack : List Frame) :
    (handOver call ++ stack).flatMap Frame.calls = stack.flatMap Frame.calls := by
  simp only [handOver]
  split <;> rfl

theorem advance_build {c : Channel} {i : CallId} {call : ChannelCall} {o : BuildOutcome}
    (h : (c.transit [i]).Sound) (hcall : c.calls[i]? = some call) (ho : c.isFresh o = true) :
    Ledger.Advance True (c.transit [i]) (c.build i call o).ledger := by
  cases o with
  | invalid s => exact (advance_refuse s h).weaken False.elim
  | rejected s =>
      have hadv := h.answer (q := c.queued) (f := ChannelCall.reject s) (List.Perm.refl _)
        fun call _ hw hs => ⟨call.evolves_reject s, hw.reject hs s, ChannelCall.streamId_reject s,
          call.settled_reject s⟩
      rw [show (c.build i call (.rejected s)).ledger =
          { c.transit [i] with
            calls := (c.transit [i]).calls.modify i (ChannelCall.reject s)
            queued := c.queued } by
        simp only [build, ledger, transit, queued, modify, push, flatMap_handOver]]
      exact hadv.weaken False.elim
  | accepted id =>
      -- the session never gives a stream id twice, so that `emplace` takes the new pair
      have hfresh : ∀ other ∈ (c.transit [i]).calls, other.streamId ≠ some id := by
        intro other hother
        simpa using List.all_eq_true.1 ho other hother
      have hkey : ∀ p ∈ c.impl.activeCalls ++ c.impl.activeStreamingCalls, p.1 ≠ id := by
        intro p hp hid
        obtain ⟨other, hother, hstream⟩ := h.call_of_active hp
        exact hfresh other (List.mem_of_getElem? hother) (hid ▸ hstream)
      rw [show (c.build i call (.accepted id)).ledger =
          ⟨c.calls.modify i (ChannelCall.accept id), c.queued,
            (c.impl.activate call.isUnary id i).activeCalls,
            (c.impl.activate call.isUnary id i).activeStreamingCalls⟩ by
        simp only [build, ledger, queued, modify, push, flatMap_handOver]
        cases call.isUnary <;> rfl]
      -- the call goes from the strand to the active map of its kind
      cases hkind : call.isUnary with
      | true =>
          rw [show (c.impl.activate true id i).activeCalls = c.impl.activeCalls ++ [(id, i)] from
            emplace_of_fresh fun p hp => hkey p (List.mem_append_left _ hp)]
          refine h.submit (L := c.transit [i]) hcall (List.Perm.refl _) hfresh ?_ ?_
            fun _ hp => Or.inl hp
          · exact List.perm_iff_count.2 fun j => by
              simp [Ledger.held, transit, ChannelImpl.activate, List.count_append, List.count_cons]
              omega
          · intro p hp
            rcases List.mem_append.1 hp with hp | hp
            · exact Or.inl hp
            · exact Or.inr ⟨List.mem_singleton.1 hp, hkind⟩
      | false =>
          rw [show (c.impl.activate false id i).activeStreamingCalls =
              c.impl.activeStreamingCalls ++ [(id, i)] from
            emplace_of_fresh fun p hp => hkey p (List.mem_append_right _ hp)]
          refine h.submit (L := c.transit [i]) hcall (List.Perm.refl _) hfresh ?_
            (fun _ hp => Or.inl hp) ?_
          · exact List.perm_iff_count.2 fun j => by
              simp [Ledger.held, transit, ChannelImpl.activate, List.count_append, List.count_cons]
              omega
          · intro p hp
            rcases List.mem_append.1 hp with hp | hp
            · exact Or.inl hp
            · exact Or.inr ⟨List.mem_singleton.1 hp, hkind⟩

/-- A call enters its queue. -/
theorem queued_enqueue (c : Channel) (isUnary : Bool) (i : CallId) :
    { c with impl := c.impl.enqueue isUnary i }.queued.Perm (i :: c.queued) := by
  apply List.perm_iff_count.2
  intro j
  cases isUnary <;>
    simp [queued, ChannelImpl.enqueue, List.count_append, List.count_cons] <;> omega

/-- **A submit closure** refuses, queues or submits its call; it opens a stream only on a connected
channel. -/
theorem advance_submit {c : Channel} {i : CallId} {o : BuildOutcome} (h : (c.transit [i]).Sound)
    (ho : c.isFresh o = true) :
    Ledger.Advance (c.impl.state = .ready) (c.transit [i]) (c.submit i o).ledger := by
  have hwait : ∀ call : ChannelCall, Ledger.Advance (c.impl.state = .ready) (c.transit [i])
      { c with impl := c.impl.enqueue call.isUnary i }.startConnecting.ledger := by
    intro call
    rw [show Channel.ledger _ = _ from transit_startConnecting _ []]
    have hadv := advance_perm (c := { c with impl := c.impl.enqueue call.isUnary i }) h rfl
      (c.queued_enqueue call.isUnary i)
      (by cases call.isUnary <;> rfl) (by cases call.isUnary <;> rfl)
    exact hadv.weaken False.elim
  have hi : i < c.calls.length := h.custody.bound i
    (List.mem_append_left _ (List.mem_append_left _ List.mem_cons_self))
  have hcall : c.calls[i]? = some c.calls[i] := List.getElem?_eq_getElem hi
  simp only [submit]
  rw [hcall]
  dsimp only
  split
  · exact (advance_refuse _ h).weaken False.elim
  · split
    · exact (advance_refuse _ h).weaken False.elim
    · exact (advance_refuse _ h).weaken False.elim
    · rename_i hready
      exact (advance_build h hcall ho).weaken fun _ => hready
    · exact hwait _
    · exact hwait _

theorem advance_failActive {c : Channel} (h : c.ledger.Sound) :
    Ledger.Advance False c.ledger c.failActive.ledger := by
  refine h.failActive (a := []) (b := []) channelShutDown ?_ ?_ (by simp) (by simp)
  · intro i hi
    obtain ⟨p, hp, rfl⟩ := List.mem_map.1 hi
    exact ⟨p, hp, rfl⟩
  · apply List.perm_iff_count.2
    intro j
    simp only [Ledger.held, ledger, List.map_append, List.count_append, List.map_nil,
      List.append_nil]
    omega

theorem advance_onGoaway {c : Channel} (h : c.ledger.Sound) (lastStreamId : StreamId) :
    Ledger.Advance False c.ledger (c.onGoaway lastStreamId).ledger := by
  refine h.failActive (a := c.impl.activeCalls.filter fun p => !decide (lastStreamId < p.1))
    (b := c.impl.activeStreamingCalls.filter fun p => !decide (lastStreamId < p.1))
    (goawayStatus lastStreamId) ?_ ?_ ?_ ?_
  · intro i hi
    obtain ⟨p, hp, rfl⟩ := List.mem_map.1 hi
    refine ⟨p, ?_, rfl⟩
    rcases List.mem_append.1 hp with hp | hp
    · exact List.mem_append_left _ (List.mem_of_mem_filter hp)
    · exact List.mem_append_right _ (List.mem_of_mem_filter hp)
  · have hsplit : ∀ m : List (StreamId × CallId), (m.map Prod.snd).Perm
        ((m.filter fun p => decide (lastStreamId < p.1)).map Prod.snd ++
          (m.filter fun p => !decide (lastStreamId < p.1)).map Prod.snd) := by
      intro m
      rw [← List.map_append]
      exact (List.filter_append_perm _ m).symm.map _
    have ha := List.perm_iff_count.1 (hsplit c.impl.activeCalls)
    have hb := List.perm_iff_count.1 (hsplit c.impl.activeStreamingCalls)
    apply List.perm_iff_count.2
    intro j
    have haj := ha j
    have hbj := hb j
    simp only [Ledger.held, ledger, List.map_append, List.count_append] at haj hbj ⊢
    omega
  · exact fun _ hp => List.mem_of_mem_filter hp
  · exact fun _ hp => List.mem_of_mem_filter hp

theorem advance_close {c : Channel} (h : c.ledger.Sound) (i : CallId) (errorCode : Nat) :
    Ledger.Advance False c.ledger (c.close i errorCode).ledger := by
  have hsame : Ledger.Advance False c.ledger c.ledger := h.requeue (List.Perm.refl _)
  simp only [close]
  split
  · exact hsame
  · rename_i call hcall
    split
    · exact hsame
    · rename_i id hid
      have hq : { c with impl := c.impl.removeActive call.isUnary id }.queued = c.queued := by
        cases call.isUnary <;> rfl
      have hadv := h.close (a := (c.impl.removeActive call.isUnary id).activeCalls)
        (b := (c.impl.removeActive call.isUnary id).activeStreamingCalls) errorCode hcall hid
        (by cases call.isUnary <;> rfl) (by cases call.isUnary <;> rfl)
      rw [show c.ledger.queued = _ from hq.symm] at hadv
      exact hadv

/-! ## Closures and loops -/

/-- **A closure on the strand** opens a stream only on a connected channel. -/
theorem advance_runTask {c : Channel} {t : ChannelTask} {o : BuildOutcome}
    (h : (c.transit t.calls).Sound) (ho : c.isFresh o = true) :
    Ledger.Advance (c.impl.state = .ready) (c.transit t.calls) (c.runTask t o).ledger := by
  have hsame : ∀ {c' : Channel}, c'.transit [] = c.transit [] → (c.transit []).Sound →
      Ledger.Advance (c.impl.state = .ready) (c.transit []) c'.ledger := by
    intro c' heq hs
    rw [show c'.ledger = c.transit [] from heq]
    exact (hs.requeue (List.Perm.refl _)).weaken False.elim
  cases t with
  | connect w => exact hsame (transit_connect c w []) h
  | submit i => exact advance_submit h ho
  | shutdown => exact hsame (transit_doShutdown c []) h
  | onConnect => exact hsame (transit_onConnect c []) h
  | onError e => exact hsame (transit_onError c e []) h
  | onGoaway lastStreamId =>
      simp only [runTask]
      split
      · exact hsame rfl h
      · exact (advance_onGoaway (c := c) h lastStreamId).weaken False.elim
  | close i errorCode => exact (advance_close (c := c) h i errorCode).weaken False.elim

/-- **A function on the strand goes on.** -/
theorem advance_runFrame {c : Channel} {f : Frame} {o : BuildOutcome}
    (h : (c.transit f.calls).Sound) (ho : c.isFresh o = true) :
    Ledger.Advance (c.impl.state = .ready) (c.transit f.calls) (c.runFrame f o).ledger := by
  have hmove : ∀ {c' : Channel}, c'.calls = c.calls → c'.queued.Perm (f.calls ++ c.queued) →
      c'.impl.activeCalls = c.impl.activeCalls →
        c'.impl.activeStreamingCalls = c.impl.activeStreamingCalls →
          Ledger.Advance (c.impl.state = .ready) (c.transit f.calls) c'.ledger := by
    intro c' hcalls hq ha hb
    exact (advance_perm h hcalls hq ha hb).weaken False.elim
  -- a loop keeps the rest of its calls on the stack
  have hhead : ∀ {i : CallId} {ids : List CallId} {g : Frame}, f.calls = i :: ids → g.calls = ids →
      Ledger.Advance (c.impl.state = .ready) (c.transit f.calls) ((c.push [g]).transit [i]) := by
    intro i ids g hf hg
    have hadv := h.requeue (q := i :: (c.push [g]).queued) (List.perm_iff_count.2 fun j => by
      simp [transit, queued, push, hf, hg, List.count_append, List.count_cons]
      omega)
    exact hadv.weaken False.elim
  cases f with
  | user => exact hmove rfl (List.Perm.refl _) rfl rfl
  | notifyWaiters ws s => cases ws <;> exact hmove rfl (List.Perm.refl _) rfl rfl
  | drainReady =>
      refine hmove rfl (List.perm_iff_count.2 fun j => ?_) rfl rfl
      simp [runFrame, queued, push, Frame.calls, List.count_append]
      omega
  | submitCalls ids =>
      cases ids with
      | nil => exact hmove rfl (List.Perm.refl _) rfl rfl
      | cons i ids =>
          have hstep := hhead (g := .submitCalls ids) rfl rfl
          exact hstep.trans (advance_submit (c := c.push [.submitCalls ids]) hstep.sound ho)
  | drainGeneric =>
      refine hmove rfl (List.perm_iff_count.2 fun j => ?_) rfl rfl
      simp [runFrame, queued, push, Frame.calls, List.count_append]
      omega
  | runGeneric ids =>
      cases ids with
      | nil => exact hmove rfl (List.Perm.refl _) rfl rfl
      | cons i ids =>
          have hstep := hhead (g := .runGeneric ids) rfl rfl
          exact hstep.trans (advance_submit (c := c.push [.runGeneric ids]) hstep.sound ho)
  | failAll s =>
      refine hmove rfl (List.perm_iff_count.2 fun j => ?_) rfl rfl
      simp [runFrame, queued, push, Frame.calls, List.count_append]
      omega
  | completePending ids s =>
      cases ids with
      | nil => exact hmove rfl (List.Perm.refl _) rfl rfl
      | cons i ids =>
          have hstep := hhead (g := .completePending ids s) rfl rfl
          have hrefuse := advance_refuse (c := c.push [.completePending ids s]) s hstep.sound
          exact hstep.trans (hrefuse.weaken False.elim)
  | shutdownActive => exact (advance_failActive (c := c) h).weaken False.elim

/-! ## Events -/

/-- An operation given to the channel is in hand; a new call waits. -/
theorem advance_give {c : Channel} (h : c.ledger.Sound) (op : ChannelOp) :
    Ledger.Advance False c.ledger ((c.give op).1.transit (c.give op).2.calls) := by
  cases op with
  | connect => exact h.requeue (List.Perm.refl _)
  | submitCall ctx =>
      exact h.accept (n := .unary (SubmittedUnary.new ctx)) (SubmittedUnary.sound_new ctx)
        ⟨rfl, rfl, rfl⟩ (List.Perm.refl _)
  | submitStreaming kind ctx =>
      exact h.accept (n := .streaming (SubmittedStreaming.new kind ctx))
        (SubmittedStreaming.sound_new kind ctx) rfl (List.Perm.refl _)
  | shutdown => exact h.requeue (List.Perm.refl _)

theorem impl_give (c : Channel) (op : ChannelOp) : (c.give op).1.impl = c.impl := by
  cases op <;> rfl

/-- A new call has no stream, so fresh ids stay fresh. -/
theorem isFresh_give (c : Channel) (op : ChannelOp) (o : BuildOutcome) :
    (c.give op).1.isFresh o = c.isFresh o := by
  cases o with
  | accepted id =>
      cases op <;>
        simp [give, isFresh, ChannelCall.streamId, SubmittedUnary.new, SubmittedStreaming.new]
  | _ => rfl

theorem queued_enqueueTask (c : Channel) (t : ChannelTask) :
    (c.enqueue t).queued.Perm (t.calls ++ c.queued) := by
  apply List.perm_iff_count.2
  intro j
  simp [queued, enqueue, List.count_append]
  omega

/-- The strand takes its next closure. -/
theorem ledger_strand {c : Channel} {t : ChannelTask} {rest : List ChannelTask}
    (hs : c.strand = t :: rest) : c.ledger = { c with strand := rest }.transit t.calls := by
  simp [ledger, transit, queued, hs]

/-- The strand goes on with the innermost function. -/
theorem advance_stack {c : Channel} (h : c.ledger.Sound) {f : Frame} {rest : List Frame}
    (hs : c.stack = f :: rest) :
    Ledger.Advance False c.ledger ({ c with stack := rest }.transit f.calls) := by
  refine h.requeue (List.perm_iff_count.2 fun j => ?_)
  simp [ledger, queued, hs, List.count_append]
  omega

/-- **Every event advances the ledger**, and opens a stream only on a connected channel. -/
theorem step_advance {z : Zlib} {c c' : Channel} {e : ChannelEvent} (h : c.ledger.Sound)
    (hstep : step z c e = some c') :
    Ledger.Advance (c.impl.state = .ready) c.ledger c'.ledger := by
  have hsession : ∀ {d : Channel} {t : ChannelTask}, d.ledger = c.ledger → t.calls = [] →
      Ledger.Advance (c.impl.state = .ready) c.ledger (d.enqueue t).ledger := by
    intro d t hd ht
    have hq := d.queued_enqueueTask t
    rw [ht, List.nil_append, show d.queued = c.queued from congrArg Ledger.queued hd] at hq
    exact (advance_perm (c := d.enqueue t) h (congrArg Ledger.calls hd) hq
      (congrArg Ledger.activeCalls hd) (congrArg Ledger.activeStreamingCalls hd)).weaken False.elim
  cases step_move hstep with
  | post op =>
      have hgive := advance_give h op
      have hput := advance_perm (c := (c.give op).1.enqueue (c.give op).2) hgive.sound rfl
        ((c.give op).1.queued_enqueueTask _) rfl rfl
      exact (hgive.trans hput).weaken False.elim
  | callInline op o hs ho =>
      have hgive := advance_give h op
      have hrun := advance_runTask (t := (c.give op).2) (o := o) hgive.sound
        ((c.isFresh_give op o).trans ho)
      rw [impl_give] at hrun
      exact (hgive.weaken False.elim).trans hrun
  | callbackReturns hs => exact (advance_stack h hs).weaken False.elim
  | runStrand o hstack hs ho =>
      have hled := ledger_strand hs
      rw [hled] at h ⊢
      exact advance_runTask h ho
  | @resume f rest o hs ho =>
      have hpop := advance_stack h hs
      exact (hpop.weaken False.elim).trans
        (advance_runFrame (c := { c with stack := rest }) hpop.sound ho)
  | shutdownStopped hstack =>
      rw [show c.doShutdown.ledger = c.ledger from transit_doShutdown c []]
      exact (h.requeue (List.Perm.refl _)).weaken False.elim
  | sessionConnected hcallbacks hconnect herror => exact hsession rfl rfl
  | sessionError e hcallbacks => exact hsession rfl rfl
  | sessionGoaway lastStreamId hcallbacks hconnect => exact hsession rfl rfl
  | streamClosed errorCode hcall hid => exact hsession rfl rfl
  -- the events of a call let it proceed, and leave the places of all calls
  | unary hcall he =>
      exact (h.proceed hcall ((h.calls _ _ hcall).stepUnary he)).weaken False.elim
  | streaming hmay hcall he =>
      exact (h.proceed hcall ((h.calls _ _ hcall).stepStreaming he)).weaken False.elim
  | cancelControl hcall =>
      exact (h.proceed hcall (h.calls _ _ hcall).proceeds_storeCancelled).weaken False.elim

/-! ## The callbacks of `Connect` -/

theorem waiters_drainWithStatus (c : Channel) (s : Status) :
    (c.drainWithStatus s).heldWaiters.Perm c.heldWaiters := by
  apply List.perm_iff_count.2
  intro j
  simp [heldWaiters, drainWithStatus, push, Frame.waiters, List.count_append]
  omega

theorem waiters_notify (c : Channel) (w : WaiterId) (s : Status) :
    (c.notify w s).heldWaiters.Perm (w :: c.heldWaiters) := by
  apply List.perm_iff_count.2
  intro j
  simp [heldWaiters, notify, push, Frame.waiters, List.count_append, List.count_cons]
  omega

theorem waiters_startConnecting (c : Channel) :
    c.startConnecting.heldWaiters.Perm c.heldWaiters := by
  simp only [startConnecting, doConnect]
  split
  · split
    · exact waiters_drainWithStatus _ _
    · exact List.Perm.refl _
  · exact List.Perm.refl _

theorem waiters_connect (c : Channel) (w : WaiterId) :
    (c.connect w).heldWaiters.Perm (w :: c.heldWaiters) := by
  have hpush : { c with impl := { c.impl with
      connectWaiters := c.impl.connectWaiters ++ [w] } }.heldWaiters.Perm (w :: c.heldWaiters) := by
    apply List.perm_iff_count.2
    intro j
    simp [heldWaiters, List.count_append, List.count_cons]
    omega
  simp only [connect]
  split
  · exact waiters_notify c w _
  · exact waiters_notify c w _
  · exact waiters_notify c w _
  · exact (waiters_startConnecting _).trans hpush
  · exact (waiters_startConnecting _).trans hpush

theorem heldWaiters_refuse (c : Channel) (i : CallId) (s : Status) :
    (c.refuse i s).heldWaiters = c.heldWaiters := rfl

theorem heldWaiters_build (c : Channel) (i : CallId) (call : ChannelCall) (o : BuildOutcome) :
    (c.build i call o).heldWaiters = c.heldWaiters := by
  cases o <;> cases hkind : call.isUnary <;>
    simp [build, heldWaiters, refuse, modify, push, handOver, hkind, ChannelImpl.activate,
      Frame.waiters]

theorem waiters_submit (c : Channel) (i : CallId) (o : BuildOutcome) :
    (c.submit i o).heldWaiters.Perm c.heldWaiters := by
  have hqueue : ∀ call : ChannelCall,
      { c with impl := c.impl.enqueue call.isUnary i }.heldWaiters = c.heldWaiters := by
    intro call
    cases call.isUnary <;> rfl
  simp only [submit]
  split
  · exact List.Perm.refl _
  · rename_i call _
    split
    · exact List.Perm.of_eq (heldWaiters_refuse c i _)
    · split
      · exact List.Perm.of_eq (heldWaiters_refuse c i _)
      · exact List.Perm.of_eq (heldWaiters_refuse c i _)
      · exact List.Perm.of_eq (heldWaiters_build c i call o)
      · exact (waiters_startConnecting _).trans (List.Perm.of_eq (hqueue call))
      · exact (waiters_startConnecting _).trans (List.Perm.of_eq (hqueue call))

theorem waiters_doShutdown (c : Channel) : c.doShutdown.heldWaiters.Perm c.heldWaiters := by
  simp only [doShutdown]
  split
  · exact List.Perm.refl _
  · apply List.perm_iff_count.2
    intro j
    simp [heldWaiters, push, Frame.waiters, List.count_append]
    omega

theorem waiters_onConnected (c : Channel) (e : Option SessionError) :
    (c.onConnected e).heldWaiters.Perm c.heldWaiters := by
  cases e with
  | some e => exact waiters_drainWithStatus _ _
  | none =>
      apply List.perm_iff_count.2
      intro j
      simp [heldWaiters, onConnected, push, Frame.waiters, List.count_append]
      omega

theorem waiters_close (c : Channel) (i : CallId) (errorCode : Nat) :
    (c.close i errorCode).heldWaiters = c.heldWaiters := by
  simp only [close]
  split
  · rfl
  · rename_i call _
    split
    · rfl
    · cases call.isUnary <;> rfl

/-- A closure on the strand keeps the callbacks. -/
theorem waiters_runTask (c : Channel) (t : ChannelTask) (o : BuildOutcome) :
    (c.runTask t o).heldWaiters.Perm (t.waiters ++ c.heldWaiters) := by
  cases t with
  | connect w => exact waiters_connect c w
  | submit i => exact waiters_submit c i o
  | shutdown => exact waiters_doShutdown c
  | onConnect =>
      simp only [runTask, onConnect]
      split
      · exact List.Perm.refl _
      · exact waiters_onConnected _ none
  | onError e =>
      simp only [runTask, onError]
      split
      · exact List.Perm.refl _
      · exact List.Perm.refl _
      · exact waiters_onConnected c (some e)
  | onGoaway lastStreamId =>
      simp only [runTask]
      split <;> exact List.Perm.refl _
  | close i errorCode => exact List.Perm.of_eq (waiters_close c i errorCode)

/-- A function on the strand keeps the callbacks. -/
theorem waiters_runFrame (c : Channel) (f : Frame) (o : BuildOutcome) :
    (c.runFrame f o).heldWaiters.Perm (f.waiters ++ c.heldWaiters) := by
  cases f with
  | notifyWaiters ws s =>
      cases ws with
      | nil => exact List.Perm.refl _
      | cons w ws =>
          refine (waiters_notify (c.push [.notifyWaiters ws s]) w s).trans ?_
          apply List.perm_iff_count.2
          intro j
          simp [heldWaiters, push, Frame.waiters, List.count_append, List.count_cons]
          omega
  | submitCalls ids =>
      cases ids with
      | nil => exact List.Perm.refl _
      | cons i ids => exact waiters_submit (c.push [.submitCalls ids]) i o
  | runGeneric ids =>
      cases ids with
      | nil => exact List.Perm.refl _
      | cons i ids => exact waiters_submit (c.push [.runGeneric ids]) i o
  | completePending ids s =>
      cases ids with
      | nil => exact List.Perm.refl _
      | cons i ids => exact List.Perm.refl _
  | _ => exact List.Perm.refl _

/-- Every callback given to `Connect` is in one place, or has been invoked once. -/
def WaitersKept (c : Channel) : Prop := Custody c.waiters c.heldWaiters fun _ => False

theorem WaitersKept.perm {c c' : Channel} (h : c.WaitersKept) (hn : c'.waiters = c.waiters)
    (hp : c'.heldWaiters.Perm c.heldWaiters) : c'.WaitersKept := by
  simp only [WaitersKept]
  rw [hn]
  exact Custody.perm h hp fun _ _ hf => hf

/-- What no function on the strand changes: the strand itself, the number of callbacks given to
`Connect`, and what the session has fired. -/
def outside (c : Channel) : List ChannelTask × Nat × Bool × Bool :=
  (c.strand, c.waiters, c.connectFired, c.errorFired)

theorem outside_startConnecting (c : Channel) : c.startConnecting.outside = c.outside := by
  simp only [startConnecting, doConnect]
  split
  · split <;> rfl
  · rfl

theorem outside_submit (c : Channel) (i : CallId) (o : BuildOutcome) :
    (c.submit i o).outside = c.outside := by
  simp only [submit]
  split
  · rfl
  · split
    · rfl
    · split
      · rfl
      · rfl
      · cases o <;> rfl
      · exact outside_startConnecting _
      · exact outside_startConnecting _

theorem outside_doShutdown (c : Channel) : c.doShutdown.outside = c.outside := by
  unfold doShutdown
  split <;> rfl

theorem outside_onConnected (c : Channel) (e : Option SessionError) :
    (c.onConnected e).outside = c.outside := by
  cases e <;> rfl

theorem outside_runTask (c : Channel) (t : ChannelTask) (o : BuildOutcome) :
    (c.runTask t o).outside = c.outside := by
  cases t with
  | connect w =>
      simp only [runTask, connect]
      split
      · rfl
      · rfl
      · rfl
      · exact outside_startConnecting _
      · exact outside_startConnecting _
  | submit i => exact outside_submit c i o
  | shutdown => exact outside_doShutdown c
  | onConnect =>
      simp only [runTask, onConnect]
      split
      · rfl
      · exact outside_onConnected _ none
  | onError e =>
      simp only [runTask, onError]
      split
      · rfl
      · rfl
      · exact outside_onConnected c (some e)
  | onGoaway lastStreamId =>
      simp only [runTask]
      split <;> rfl
  | close i errorCode =>
      simp only [runTask, close]
      split
      · rfl
      · split <;> rfl

theorem outside_runFrame (c : Channel) (f : Frame) (o : BuildOutcome) :
    (c.runFrame f o).outside = c.outside := by
  cases f with
  | notifyWaiters ws s => cases ws <;> rfl
  | submitCalls ids =>
      cases ids with
      | nil => rfl
      | cons i ids => exact outside_submit (c.push [.submitCalls ids]) i o
  | runGeneric ids =>
      cases ids with
      | nil => rfl
      | cons i ids => exact outside_submit (c.push [.runGeneric ids]) i o
  | completePending ids s => cases ids <;> rfl
  | _ => rfl

/-- **Every event keeps the callbacks of `Connect`.** -/
theorem step_waiters {z : Zlib} {c c' : Channel} {e : ChannelEvent} (h : c.WaitersKept)
    (hstep : step z c e = some c') : c'.WaitersKept := by
  have hcount : ∀ {d d' : Channel}, d'.outside = d.outside → d'.waiters = d.waiters :=
    fun heq => congrArg (fun p => p.2.1) heq
  have hsession : ∀ {d : Channel} {t : ChannelTask}, d.heldWaiters = c.heldWaiters →
      d.waiters = c.waiters → t.waiters = [] → (d.enqueue t).WaitersKept := by
    intro d t hd hn ht
    refine h.perm hn (List.Perm.of_eq ?_)
    rw [← hd]
    simp [heldWaiters, enqueue, ht]
  have hgive : ∀ op, Custody (c.give op).1.waiters
      ((c.give op).2.waiters ++ (c.give op).1.heldWaiters) fun _ => False := by
    intro op
    cases op with
    | connect => exact Custody.accept h (List.Perm.refl _) fun _ _ hf => hf
    | submitCall ctx => exact h
    | submitStreaming kind ctx => exact h
    | shutdown => exact h
  cases step_move hstep with
  | post op =>
      refine Custody.perm (hgive op) (List.perm_iff_count.2 fun j => ?_) fun _ _ hf => hf
      simp [heldWaiters, enqueue, List.count_append]
      omega
  | callInline op o hs ho =>
      simp only [WaitersKept]
      rw [hcount (outside_runTask _ _ _)]
      exact Custody.perm (hgive op) (waiters_runTask _ _ o) fun _ _ hf => hf
  | callbackReturns hs =>
      exact h.perm rfl (List.Perm.of_eq (by simp [heldWaiters, hs, Frame.waiters]))
  | @runStrand t rest o hstack hs ho =>
      -- the closure leaves the strand with its callbacks, and its run places them again
      refine h.perm (hcount (d := { c with strand := rest }) (outside_runTask _ t o))
        ((waiters_runTask _ t o).trans ?_)
      exact List.Perm.of_eq (by simp [heldWaiters, hs])
  | @resume f rest o hs ho =>
      refine h.perm (hcount (outside_runFrame _ f o)) ((waiters_runFrame _ f o).trans ?_)
      apply List.perm_iff_count.2
      intro j
      simp [heldWaiters, hs, List.count_append]
      omega
  | shutdownStopped hstack => exact h.perm (hcount (outside_doShutdown c)) (waiters_doShutdown c)
  | sessionConnected hcallbacks hconnect herror => exact hsession rfl rfl rfl
  | sessionError e hcallbacks => exact hsession rfl rfl rfl
  | sessionGoaway lastStreamId hcallbacks hconnect => exact hsession rfl rfl rfl
  | streamClosed errorCode hcall hid => exact hsession rfl rfl rfl
  | unary hcall he => exact h
  | streaming hmay hcall he => exact h
  | cancelControl hcall => exact h

end Channel

end Rpcpio.Client
