import Rpcpio.Client.Channel
import Rpcpio.Library.Custody

/-!
# Where the calls of a channel are

The ledger of a channel lists its calls and its places: the calls that wait to be submitted or
refused, and the two maps of submitted calls. `Ledger.Sound` says that a call is in exactly one
place until it is settled, that what waits has not been touched, and that the maps hold submitted
calls under their own stream ids. `Ledger.Advance` is what a step of the channel may do to the
ledger; `step_advance` shows that every step does no more.
-/

set_option autoImplicit false

namespace Rpcpio.Client

open Rpcpio.Library Rpcpio.Protocol

/-- The calls and the places that hold them. -/
structure Ledger where
  calls : List ChannelCall
  queued : List CallId
  activeCalls : List (StreamId × CallId)
  activeStreamingCalls : List (StreamId × CallId)

namespace Ledger

/-- The contents of all places. -/
def held (L : Ledger) : List CallId :=
  L.queued ++ (L.activeCalls ++ L.activeStreamingCalls).map Prod.snd

/-- Call `i` is settled. -/
def Settled (L : Ledger) (i : CallId) : Prop :=
  ∀ call, L.calls[i]? = some call → call.settled = true

/-- **No call is lost.** -/
structure Sound (L : Ledger) : Prop where
  custody : Custody L.calls.length L.held L.Settled
  waiting : ∀ i ∈ L.queued, ∀ call, L.calls[i]? = some call → call.Waiting
  unary : ∀ p ∈ L.activeCalls, ∀ call, L.calls[p.2]? = some call →
    call.isUnary = true ∧ call.streamId = some p.1
  streaming : ∀ p ∈ L.activeStreamingCalls, ∀ call, L.calls[p.2]? = some call →
    call.isUnary = false ∧ call.streamId = some p.1
  calls : ∀ (i : CallId) (call : ChannelCall), L.calls[i]? = some call → call.Sound
  distinct : ∀ (i j : CallId) (ci cj : ChannelCall) (id : StreamId), L.calls[i]? = some ci →
    L.calls[j]? = some cj → ci.streamId = some id → cj.streamId = some id → i = j

/-- What a step may do: the calls evolve, and unless streams may be opened, no call gets a stream
and no call enters a map. -/
structure Advance (mayOpen : Prop) (L L' : Ledger) : Prop where
  sound : L'.Sound
  calls : ∀ (i : CallId) (call : ChannelCall), L.calls[i]? = some call →
    ∃ call', L'.calls[i]? = some call' ∧ ChannelCall.Evolves call call'
  opens : ¬ mayOpen → ∀ (i : CallId) (call' : ChannelCall), L'.calls[i]? = some call' →
    ∀ id, call'.streamId = some id → ∃ call, L.calls[i]? = some call ∧ call.streamId = some id
  unary : ¬ mayOpen → ∀ p ∈ L'.activeCalls, p ∈ L.activeCalls
  streaming : ¬ mayOpen → ∀ p ∈ L'.activeStreamingCalls, p ∈ L.activeStreamingCalls

theorem Advance.weaken {p q : Prop} {L L' : Ledger} (h : Advance p L L') (hpq : p → q) :
    Advance q L L' :=
  ⟨h.sound, h.calls, fun hq => h.opens fun hp => hq (hpq hp),
    fun hq => h.unary fun hp => hq (hpq hp), fun hq => h.streaming fun hp => hq (hpq hp)⟩

theorem Advance.trans {p : Prop} {L L' L'' : Ledger} (h : Advance p L L') (h' : Advance p L' L'') :
    Advance p L L'' := by
  refine ⟨h'.sound, ?_, ?_, ?_, ?_⟩
  · intro i call hcall
    obtain ⟨call', hcall', hev⟩ := h.calls i call hcall
    obtain ⟨call'', hcall'', hev'⟩ := h'.calls i call' hcall'
    exact ⟨call'', hcall'', hev.trans hev'⟩
  · intro hp i call'' hcall'' id hid
    obtain ⟨call', hcall', hid'⟩ := h'.opens hp i call'' hcall'' id hid
    exact h.opens hp i call' hcall' id hid'
  · intro hp q hq
    exact h.unary hp q (h'.unary hp q hq)
  · intro hp q hq
    exact h.streaming hp q (h'.streaming hp q hq)

/-- The ledger is rearranged: only the order in the queues changes. -/
theorem Sound.requeue {L : Ledger} (h : L.Sound) {q : List CallId} (hq : q.Perm L.queued) :
    Advance False L { L with queued := q } := by
  refine ⟨⟨h.custody.perm (hq.append_right _) fun _ _ hr => hr, ?_, h.unary, h.streaming, h.calls,
    h.distinct⟩, ?_, ?_, fun _ _ hp => hp, fun _ _ hp => hp⟩
  · intro i hi
    exact h.waiting i (hq.mem_iff.1 hi)
  · intro i call hcall
    exact ⟨call, hcall, ChannelCall.Evolves.refl call⟩
  · intro _ i call hcall id hid
    exact ⟨call, hcall, hid⟩

/-- A new call is accepted. -/
theorem Sound.accept {L : Ledger} (h : L.Sound) {q : List CallId} {n : ChannelCall}
    (hs : n.Sound) (hw : n.Waiting) (hq : q.Perm (L.calls.length :: L.queued)) :
    Advance False L { L with calls := L.calls ++ [n], queued := q } := by
  -- the new call is the last one; the others keep their numbers
  have hold : ∀ {i : CallId} {call : ChannelCall},
      L.calls[i]? = some call → (L.calls ++ [n])[i]? = some call := by
    intro i call hcall
    rw [List.getElem?_append_left (List.getElem?_eq_some_iff.1 hcall).1, hcall]
  have hcases : ∀ {i : CallId} {call : ChannelCall}, (L.calls ++ [n])[i]? = some call →
      L.calls[i]? = some call ∨ (i = L.calls.length ∧ call = n) := by
    intro i call hcall
    rcases Nat.lt_or_ge i L.calls.length with hlt | hge
    · rw [List.getElem?_append_left hlt] at hcall
      exact Or.inl hcall
    · rw [List.getElem?_append_right hge, List.getElem?_singleton] at hcall
      obtain ⟨h0, heq⟩ := Option.ite_none_right_eq_some.1 hcall
      exact Or.inr ⟨Nat.le_antisymm (Nat.le_of_sub_eq_zero h0) hge, (Option.some.inj heq).symm⟩
  -- it has no stream yet, and no registration names it
  have hnone : n.streamId = none := hw.streamId_eq_none hs
  have hbound : ∀ {p : StreamId × CallId} {call : ChannelCall},
      p ∈ L.activeCalls ++ L.activeStreamingCalls →
        (L.calls ++ [n])[p.2]? = some call → L.calls[p.2]? = some call := by
    intro p call hp hcall
    have hlt := h.custody.bound p.2 (List.mem_append_right _ (List.mem_map_of_mem hp))
    rwa [List.getElem?_append_left hlt] at hcall
  refine ⟨⟨?_, ?_, ?_, ?_, ?_, ?_⟩, ?_, ?_, fun _ _ hp => hp, fun _ _ hp => hp⟩
  · simp only [List.length_append, List.length_singleton]
    apply h.custody.accept (hq.append_right _)
    intro i hi hr call hcall
    rcases hcases hcall with hcall | ⟨rfl, _⟩
    · exact hr call hcall
    · exact absurd hi (Nat.lt_irrefl _)
  · intro i hi call hcall
    rcases hcases hcall with hcall | ⟨rfl, rfl⟩
    · rcases List.mem_cons.1 (hq.mem_iff.1 hi) with rfl | hi
      · rw [List.getElem?_eq_none (Nat.le_refl _)] at hcall
        cases hcall
      · exact h.waiting i hi call hcall
    · exact hw
  · intro p hp call hcall
    exact h.unary p hp call (hbound (List.mem_append_left _ hp) hcall)
  · intro p hp call hcall
    exact h.streaming p hp call (hbound (List.mem_append_right _ hp) hcall)
  · intro i call hcall
    rcases hcases hcall with hcall | ⟨_, rfl⟩
    · exact h.calls i call hcall
    · exact hs
  · intro i j ci cj id hi hj hidi hidj
    rcases hcases hi with hi | ⟨_, rfl⟩
    · rcases hcases hj with hj | ⟨_, rfl⟩
      · exact h.distinct i j ci cj id hi hj hidi hidj
      · rw [hnone] at hidj
        cases hidj
    · rw [hnone] at hidi
      cases hidi
  · intro i call hcall
    exact ⟨call, hold hcall, ChannelCall.Evolves.refl call⟩
  · intro _ i call hcall id hid
    rcases hcases hcall with hcall | ⟨_, rfl⟩
    · exact ⟨call, hcall, hid⟩
    · rw [hnone] at hid
      cases hid

/-- **The calls evolve in place**, each by its own function; those of `out` are settled and leave
their places. -/
theorem Sound.evolve {L : Ledger} (h : L.Sound) {f : CallId → ChannelCall → ChannelCall}
    {calls : List ChannelCall} {q r : List CallId} {a b : List (StreamId × CallId)}
    (hcalls : ∀ i, calls[i]? = L.calls[i]?.map (f i))
    (hf : ∀ i call, L.calls[i]? = some call →
      ChannelCall.Evolves call (f i call) ∧ (f i call).Sound ∧
        (f i call).streamId = call.streamId ∧ (i ∈ q → (f i call).Waiting) ∧
          (i ∈ r → (f i call).settled = true))
    (hheld : L.held.Perm (r ++ (q ++ (a ++ b).map Prod.snd)))
    (ha : ∀ p ∈ a, p ∈ L.activeCalls) (hb : ∀ p ∈ b, p ∈ L.activeStreamingCalls) :
    Advance False L ⟨calls, q, a, b⟩ := by
  have hback : ∀ {i : CallId} {call' : ChannelCall}, calls[i]? = some call' →
      ∃ call, L.calls[i]? = some call ∧ call' = f i call := by
    intro i call' hcall
    rw [hcalls, Option.map_eq_some_iff] at hcall
    obtain ⟨call, hcall, rfl⟩ := hcall
    exact ⟨call, hcall, rfl⟩
  -- no call appears or disappears
  have hlen : calls.length = L.calls.length := by
    refine Nat.le_antisymm (List.getElem?_eq_none_iff.1 ?_) (List.getElem?_eq_none_iff.1 ?_)
    · rw [hcalls, List.getElem?_eq_none (Nat.le_refl _)]
      rfl
    · rw [← Option.map_eq_none_iff (f := f calls.length), ← hcalls,
        List.getElem?_eq_none (Nat.le_refl _)]
  have hactive : ∀ {p : StreamId × CallId} {call' : ChannelCall}, calls[p.2]? = some call' →
      ∃ call, L.calls[p.2]? = some call ∧ call'.isUnary = call.isUnary ∧
        call'.streamId = call.streamId := by
    intro p call' hcall'
    obtain ⟨call, hcall, rfl⟩ := hback hcall'
    exact ⟨call, hcall, (hf p.2 call hcall).1.kind, (hf p.2 call hcall).2.2.1⟩
  refine ⟨⟨?_, ?_, ?_, ?_, ?_, ?_⟩, ?_, ?_, fun _ => ha, fun _ => hb⟩
  · rw [show Ledger.calls ⟨calls, q, a, b⟩ = calls from rfl, hlen]
    refine h.custody.releaseAll hheld (fun i hi call' hcall' => ?_) fun i _ hr call' hcall' => ?_
    · obtain ⟨call, hcall, rfl⟩ := hback hcall'
      exact (hf i call hcall).2.2.2.2 hi
    · obtain ⟨call, hcall, rfl⟩ := hback hcall'
      exact (hf i call hcall).1.settled (hr call hcall)
  · intro i hi call' hcall'
    obtain ⟨call, hcall, rfl⟩ := hback hcall'
    exact (hf i call hcall).2.2.2.1 hi
  · intro p hp call' hcall'
    obtain ⟨call, hcall, hkind, hstream⟩ := hactive hcall'
    rw [hkind, hstream]
    exact h.unary p (ha p hp) call hcall
  · intro p hp call' hcall'
    obtain ⟨call, hcall, hkind, hstream⟩ := hactive hcall'
    rw [hkind, hstream]
    exact h.streaming p (hb p hp) call hcall
  · intro i call' hcall'
    obtain ⟨call, hcall, rfl⟩ := hback hcall'
    exact (hf i call hcall).2.1
  -- the stream identifiers are those of before, so they still differ
  · intro i j ci' cj' id hi' hj' hidi hidj
    obtain ⟨ci, hi, rfl⟩ := hback hi'
    obtain ⟨cj, hj, rfl⟩ := hback hj'
    rw [(hf i ci hi).2.2.1] at hidi
    rw [(hf j cj hj).2.2.1] at hidj
    exact h.distinct i j ci cj id hi hj hidi hidj
  · intro i call hcall
    refine ⟨f i call, ?_, (hf i call hcall).1⟩
    show calls[i]? = some (f i call)
    rw [hcalls, hcall]
    rfl
  · intro _ i call' hcall' id hid
    obtain ⟨call, hcall, rfl⟩ := hback hcall'
    exact ⟨call, hcall, (hf i call hcall).2.2.1.symm.trans hid⟩

/-- A function of one call, as a function of all. -/
def onlyAt (i : CallId) (f : ChannelCall → ChannelCall) (j : CallId) (call : ChannelCall) :
    ChannelCall :=
  if j = i then f call else call

theorem getElem?_modify (calls : List ChannelCall) (i j : CallId) (f : ChannelCall → ChannelCall) :
    (calls.modify i f)[j]? = calls[j]?.map (onlyAt i f j) := by
  rw [List.getElem?_modify]
  cases calls[j]? with
  | none => rfl
  | some call =>
      by_cases h : i = j
      · simp [onlyAt, h]
      · simp [onlyAt, h, Ne.symm h]

/-- **One call evolves**, and leaves its place only if it is settled. -/
theorem Sound.modify {L : Ledger} (h : L.Sound) {i : CallId} {f : ChannelCall → ChannelCall}
    {q r : List CallId} {a b : List (StreamId × CallId)}
    (hf : ∀ call, L.calls[i]? = some call →
      ChannelCall.Evolves call (f call) ∧ (f call).Sound ∧ (f call).streamId = call.streamId ∧
        (i ∈ q → (f call).Waiting) ∧ (i ∈ r → (f call).settled = true))
    (hq : ∀ j ∈ q, j ∈ L.queued) (hout : ∀ j ∈ r, j = i)
    (hheld : L.held.Perm (r ++ (q ++ (a ++ b).map Prod.snd)))
    (ha : ∀ p ∈ a, p ∈ L.activeCalls) (hb : ∀ p ∈ b, p ∈ L.activeStreamingCalls) :
    Advance False L ⟨L.calls.modify i f, q, a, b⟩ := by
  refine h.evolve (f := onlyAt i f) (fun j => getElem?_modify L.calls i j f) ?_ hheld ha hb
  intro j call hcall
  by_cases hj : j = i
  · subst hj
    simp only [onlyAt, if_true]
    exact hf call hcall
  · rw [show onlyAt i f j call = call from if_neg hj]
    refine ⟨ChannelCall.Evolves.refl call, h.calls j call hcall, rfl, fun hjq => ?_, fun hjo => ?_⟩
    · exact h.waiting j (hq j hjq) call hcall
    · exact absurd (hout j hjo) hj

theorem mem_queued_perm {L : Ledger} {i : CallId} {q : List CallId}
    (hperm : L.queued.Perm (i :: q)) :
    ∀ j ∈ q, j ∈ L.queued :=
  fun _ hj => hperm.mem_iff.2 (List.mem_cons_of_mem _ hj)

/-- A waiting call is answered by the channel, and leaves the queues. -/
theorem Sound.answer {L : Ledger} (h : L.Sound) {i : CallId} {f : ChannelCall → ChannelCall}
    {q : List CallId} (hperm : L.queued.Perm (i :: q))
    (hf : ∀ call, L.calls[i]? = some call → call.Waiting → call.Sound →
      ChannelCall.Evolves call (f call) ∧ (f call).Sound ∧ (f call).streamId = call.streamId ∧
        (f call).settled = true) :
    Advance False L { L with calls := L.calls.modify i f, queued := q } := by
  have hi : i ∈ L.queued := hperm.mem_iff.2 List.mem_cons_self
  have hnodup : (i :: q).Nodup :=
    hperm.nodup_iff.1 (List.nodup_append.1 h.custody.nodup).1
  refine h.modify (r := [i]) ?_ (mem_queued_perm hperm) (by simp) (hperm.append_right _)
    (fun _ hp => hp) fun _ hp => hp
  intro call hcall
  obtain ⟨hev, hs, hstream, hset⟩ :=
    hf call hcall (h.waiting i hi call hcall) (h.calls i call hcall)
  exact ⟨hev, hs, hstream, fun hq => absurd hq (List.nodup_cons.1 hnodup).1, fun _ => hset⟩

/-- **A waiting call is submitted**, under an id that no other stream has. -/
theorem Sound.submit {L : Ledger} (h : L.Sound) {i : CallId} {call : ChannelCall} {id : StreamId}
    {q : List CallId} {a b : List (StreamId × CallId)} (hcall : L.calls[i]? = some call)
    (hperm : L.queued.Perm (i :: q)) (hfresh : ∀ c ∈ L.calls, c.streamId ≠ some id)
    (hheld : L.held.Perm (q ++ (a ++ b).map Prod.snd))
    (ha : ∀ p ∈ a, p ∈ L.activeCalls ∨ (p = (id, i) ∧ call.isUnary = true))
    (hb : ∀ p ∈ b, p ∈ L.activeStreamingCalls ∨ (p = (id, i) ∧ call.isUnary = false)) :
    Advance True L ⟨L.calls.modify i (ChannelCall.accept id), q, a, b⟩ := by
  have hw : call.Waiting := h.waiting i (hperm.mem_iff.2 List.mem_cons_self) call hcall
  have hs : call.Sound := h.calls i call hcall
  have hnodup : (i :: q).Nodup :=
    hperm.nodup_iff.1 (List.nodup_append.1 h.custody.nodup).1
  -- every later call is the submitted one, or unchanged
  have hback : ∀ {j : CallId} {call' : ChannelCall},
      (L.calls.modify i (ChannelCall.accept id))[j]? = some call' →
        (j = i ∧ call' = call.accept id) ∨ (j ≠ i ∧ L.calls[j]? = some call') := by
    intro j call' hj
    rw [getElem?_modify, Option.map_eq_some_iff] at hj
    obtain ⟨old, hold, rfl⟩ := hj
    by_cases hji : j = i
    · subst hji
      rw [hcall, Option.some.injEq] at hold
      subst hold
      exact Or.inl ⟨rfl, if_pos rfl⟩
    · exact Or.inr ⟨hji, by simpa [onlyAt, hji] using hold⟩
  have hold : ∀ {j : CallId} {c : ChannelCall}, L.calls[j]? = some c → c.streamId ≠ some id :=
    fun hj => hfresh _ (List.mem_of_getElem? hj)
  refine ⟨⟨?_, ?_, ?_, ?_, ?_, ?_⟩, ?_, fun h => absurd trivial h, fun h => absurd trivial h,
    fun h => absurd trivial h⟩
  · rw [show Ledger.calls ⟨L.calls.modify i (ChannelCall.accept id), q, a, b⟩ = _ from rfl,
      List.length_modify]
    apply h.custody.perm hheld.symm
    intro j _ hr call' hj
    rcases hback hj with ⟨rfl, rfl⟩ | ⟨_, hj⟩
    · exact (hw.evolves_accept hs id).settled (hr call hcall)
    · exact hr call' hj
  · intro j hj call' hcall'
    rcases hback hcall' with ⟨rfl, _⟩ | ⟨_, hold'⟩
    · exact absurd hj (List.nodup_cons.1 hnodup).1
    · exact h.waiting j (mem_queued_perm hperm j hj) call' hold'
  · intro p hp call' hcall'
    rcases hback hcall' with ⟨hpi, rfl⟩ | ⟨hne, hold'⟩
    · rcases ha p hp with hp | ⟨rfl, hkind⟩
      · have hid := (h.unary p hp call (hpi ▸ hcall)).2
        rw [hw.streamId_eq_none hs] at hid
        cases hid
      · simp [hkind]
    · rcases ha p hp with hp | ⟨rfl, _⟩
      · exact h.unary p hp call' hold'
      · exact absurd rfl hne
  · intro p hp call' hcall'
    rcases hback hcall' with ⟨hpi, rfl⟩ | ⟨hne, hold'⟩
    · rcases hb p hp with hp | ⟨rfl, hkind⟩
      · have hid := (h.streaming p hp call (hpi ▸ hcall)).2
        rw [hw.streamId_eq_none hs] at hid
        cases hid
      · simp [hkind]
    · rcases hb p hp with hp | ⟨rfl, _⟩
      · exact h.streaming p hp call' hold'
      · exact absurd rfl hne
  · intro j call' hcall'
    rcases hback hcall' with ⟨_, rfl⟩ | ⟨_, hold'⟩
    · exact hw.accept hs id
    · exact h.calls j call' hold'
  · intro j k cj ck id' hj hk hidj hidk
    rcases hback hj with ⟨rfl, rfl⟩ | ⟨_, hj'⟩
    · rcases hback hk with ⟨rfl, _⟩ | ⟨_, hk'⟩
      · rfl
      · rw [ChannelCall.streamId_accept] at hidj
        exact absurd (hidk.trans hidj.symm) (hold hk')
    · rcases hback hk with ⟨rfl, rfl⟩ | ⟨_, hk'⟩
      · rw [ChannelCall.streamId_accept] at hidk
        exact absurd (hidj.trans hidk.symm) (hold hj')
      · exact h.distinct j k cj ck id' hj' hk' hidj hidk
  · intro j c hj
    refine ⟨onlyAt i (ChannelCall.accept id) j c, ?_, ?_⟩
    · rw [show Ledger.calls ⟨L.calls.modify i (ChannelCall.accept id), q, a, b⟩ = _ from rfl,
        getElem?_modify, hj]
      rfl
    · by_cases hji : j = i
      · subst hji
        rw [hcall, Option.some.injEq] at hj
        subst hj
        simp only [onlyAt, if_true]
        exact hw.evolves_accept hs id
      · simp only [onlyAt, if_neg hji]
        exact ChannelCall.Evolves.refl c

/-! ## Active calls -/

/-! ## Active calls -/

theorem getElem?_failCalls (s : Status) (ids : List CallId) (calls : List ChannelCall)
    (j : CallId) :
    (failCalls ids s calls)[j]? =
      calls[j]?.map fun call => if j ∈ ids then call.fail s else call := by
  induction ids generalizing calls with
  | nil => simp [failCalls]
  | cons i ids ih =>
      rw [failCalls, List.foldl_cons, ← failCalls, ih, getElem?_modify, Option.map_map]
      congr 1
      funext call
      by_cases hji : j = i
      · subst hji
        by_cases hmem : j ∈ ids <;> simp [onlyAt, hmem, ChannelCall.fail_fail]
      · simp [onlyAt, hji]

/-- **Active calls are failed** and leave their maps. -/
theorem Sound.failActive {L : Ledger} (h : L.Sound) {r : List CallId}
    {a b : List (StreamId × CallId)} (s : Status)
    (hout : ∀ i ∈ r, ∃ p ∈ L.activeCalls ++ L.activeStreamingCalls, p.2 = i)
    (hheld : L.held.Perm (r ++ (L.queued ++ (a ++ b).map Prod.snd)))
    (ha : ∀ p ∈ a, p ∈ L.activeCalls) (hb : ∀ p ∈ b, p ∈ L.activeStreamingCalls) :
    Advance False L ⟨failCalls r s L.calls, L.queued, a, b⟩ := by
  refine h.evolve (f := fun i call => if i ∈ r then call.fail s else call)
    (getElem?_failCalls s r L.calls) ?_ hheld ha hb
  intro i call hcall
  by_cases hi : i ∈ r
  · obtain ⟨p, hp, rfl⟩ := hout i hi
    have hid : call.streamId = some p.1 := by
      rcases List.mem_append.1 hp with hp | hp
      · exact (h.unary p hp call hcall).2
      · exact (h.streaming p hp call hcall).2
    have hnodup := hheld.nodup_iff.1 h.custody.nodup
    have hdisjoint := (List.nodup_append.1 hnodup).2.2
    simp only [hi, if_true]
    refine ⟨call.evolves_fail s, (h.calls p.2 call hcall).fail hid s, ChannelCall.streamId_fail s,
      fun hq => ?_, fun _ => call.settled_fail s⟩
    exact absurd rfl (hdisjoint p.2 hi p.2 (List.mem_append_left _ hq))
  · rw [if_neg hi]
    exact ⟨ChannelCall.Evolves.refl call, h.calls i call hcall, rfl,
      fun hq => h.waiting i hq call hcall, fun hio => absurd hio hi⟩

/-- In a map whose keys belong to the calls, erasing the stream of a call erases its entry. -/
theorem eraseStream_perm {m : List (StreamId × CallId)} {id : StreamId} {i : CallId}
    (hnodup : (m.map Prod.snd).Nodup) (hkey : ∀ p ∈ m, p.1 = id ↔ p.2 = i) :
    (m.map Prod.snd).Perm
      ((if i ∈ m.map Prod.snd then [i] else []) ++ (eraseStream m id).map Prod.snd) := by
  have hfilter : (eraseStream m id).map Prod.snd = (m.map Prod.snd).filter fun j => j != i := by
    rw [List.filter_map, eraseStream]
    congr 1
    apply List.filter_congr
    intro p hp
    by_cases hpi : p.2 = i
    · simp [hpi, (hkey p hp).2 hpi]
    · have hne : p.1 ≠ id := fun hid => hpi ((hkey p hp).1 hid)
      simp [hpi, hne]
  rw [hfilter, ← hnodup.erase_eq_filter]
  split
  · rename_i hmem
    exact List.perm_cons_erase hmem
  · rename_i hmem
    rw [List.erase_of_not_mem hmem]
    exact List.Perm.refl _

/-- The call of a map entry. -/
theorem Sound.call_of_active {L : Ledger} (h : L.Sound) {p : StreamId × CallId}
    (hp : p ∈ L.activeCalls ++ L.activeStreamingCalls) :
    ∃ call, L.calls[p.2]? = some call ∧ call.streamId = some p.1 := by
  have hlt := h.custody.bound p.2 (List.mem_append_right _ (List.mem_map_of_mem hp))
  refine ⟨L.calls[p.2], List.getElem?_eq_getElem hlt, ?_⟩
  rcases List.mem_append.1 hp with hp | hp
  · exact (h.unary p hp _ (List.getElem?_eq_getElem hlt)).2
  · exact (h.streaming p hp _ (List.getElem?_eq_getElem hlt)).2

theorem Sound.key_iff {L : Ledger} (h : L.Sound) {i : CallId} {call : ChannelCall} {id : StreamId}
    (hcall : L.calls[i]? = some call) (hid : call.streamId = some id) {p : StreamId × CallId}
    (hp : p ∈ L.activeCalls ++ L.activeStreamingCalls) : p.1 = id ↔ p.2 = i := by
  obtain ⟨other, hother, hkey⟩ := h.call_of_active hp
  constructor
  · intro h1
    exact h.distinct p.2 i other call id hother hcall (h1 ▸ hkey) hid
  · intro h2
    rw [h2, hcall, Option.some.injEq] at hother
    subst hother
    exact Option.some.inj (hkey.symm.trans hid)

/-- **A stream closes**: its call is settled and leaves its map. -/
theorem Sound.close {L : Ledger} (h : L.Sound) {i : CallId} {call : ChannelCall} {id : StreamId}
    (errorCode : Nat) (hcall : L.calls[i]? = some call) (hid : call.streamId = some id)
    {a b : List (StreamId × CallId)}
    (ha : a = if call.isUnary then eraseStream L.activeCalls id else L.activeCalls)
    (hb : b = if call.isUnary then L.activeStreamingCalls
      else eraseStream L.activeStreamingCalls id) :
    Advance False L ⟨L.calls.modify i (ChannelCall.close errorCode), L.queued, a, b⟩ := by
  have hnodup := (List.nodup_append.1 h.custody.nodup).2.1
  rw [List.map_append] at hnodup
  have hsub : ∀ m : List (StreamId × CallId), ∀ p ∈ eraseStream m id, p ∈ m :=
    fun m p hp => List.mem_of_mem_filter hp
  have hmod : ∀ r : List CallId, (∀ j ∈ r, j = i) →
      L.held.Perm (r ++ (L.queued ++ (a ++ b).map Prod.snd)) →
        Advance False L ⟨L.calls.modify i (ChannelCall.close errorCode), L.queued, a, b⟩ := by
    intro r hout hheld
    refine h.modify ?_ (fun _ hj => hj) hout hheld ?_ ?_
    · intro old hold
      rw [hcall, Option.some.injEq] at hold
      subst hold
      -- a call on the queue has no stream yet, and this one has
      have hs := h.calls i call hcall
      refine ⟨hs.evolves_close errorCode, hs.close hid errorCode,
        ChannelCall.streamId_close errorCode,
        fun hq => ?_, fun _ => hs.settled_close errorCode⟩
      rw [(h.waiting i hq call hcall).streamId_eq_none hs] at hid
      cases hid
    · rw [ha]
      split
      · exact hsub _
      · exact fun _ hp => hp
    · rw [hb]
      split
      · exact fun _ hp => hp
      · exact hsub _
  -- the entry leaves the map of the call's kind
  cases hkind : call.isUnary with
  | true =>
      rw [hkind, if_pos rfl] at ha hb
      have hperm := eraseStream_perm (List.nodup_append.1 hnodup).1
        fun p hp => h.key_iff hcall hid (List.mem_append_left _ hp)
      refine hmod (if i ∈ L.activeCalls.map Prod.snd then [i] else []) ?_ ?_
      · intro j hj
        split at hj
        · exact List.mem_singleton.1 hj
        · cases hj
      · rw [held, ha, hb, List.map_append, List.map_append]
        refine ((hperm.append_right _).append_left _).trans (List.perm_iff_count.2 fun j => ?_)
        simp only [List.count_append]
        omega
  | false =>
      rw [hkind] at ha hb
      have hperm := eraseStream_perm (List.nodup_append.1 hnodup).2.1
        fun p hp => h.key_iff hcall hid (List.mem_append_right _ hp)
      refine hmod (if i ∈ L.activeStreamingCalls.map Prod.snd then [i] else []) ?_ ?_
      · intro j hj
        split at hj
        · exact List.mem_singleton.1 hj
        · cases hj
      · simp only [Bool.false_eq_true, if_false] at ha hb
        rw [held, ha, hb, List.map_append, List.map_append]
        refine ((hperm.append_left _).append_left _).trans (List.perm_iff_count.2 fun j => ?_)
        simp only [List.count_append]
        omega

/-- An event of one call. -/
theorem Sound.proceed {L : Ledger} (h : L.Sound) {i : CallId} {call call' : ChannelCall}
    (hcall : L.calls[i]? = some call) (hp : ChannelCall.Proceeds call call') :
    Advance False L { L with calls := L.calls.set i call' } := by
  refine h.evolve (f := onlyAt i fun _ => call') (r := []) ?_ ?_ (List.Perm.refl _)
    (fun _ hp => hp) fun _ hp => hp
  · intro j
    by_cases hj : i = j
    · subst hj
      rw [List.getElem?_set_self (List.getElem?_eq_some_iff.1 hcall).1, hcall]
      simp [onlyAt]
    · rw [List.getElem?_set_ne hj]
      cases hold : L.calls[j]? with
      | none => rfl
      | some old => simp [onlyAt, Ne.symm hj]
  · intro j old hold
    by_cases hj : j = i
    · subst hj
      rw [hcall, Option.some.injEq] at hold
      subst hold
      rw [show onlyAt j (fun _ => call') j call = call' from if_pos rfl]
      exact ⟨hp.evolves, hp.sound, hp.stream, fun hq => hp.waiting (h.waiting j hq call hcall),
        fun hout => by cases hout⟩
    · rw [show onlyAt i (fun _ => call') j old = old from if_neg hj]
      exact ⟨ChannelCall.Evolves.refl old, h.calls j old hold, rfl,
        fun hq => h.waiting j hq old hold, fun hout => by cases hout⟩

end Ledger

end Rpcpio.Client
