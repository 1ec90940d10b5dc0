import Rpcpio.Stream.UnaryRefusal
import Rpcpio.Typed.Messages

/-!
# Typed unary calls

`Channel::UnaryCall` at one end and the adapter of `Server::RegisterUnary` at the other, around the
exchange of bytes: the handler is called with the message that the caller passed, and the caller
gets what the handler returned. A call whose result is a response is an exchange of
`UnaryRoundTrip`, any other one of `UnaryRefusal`.
-/

set_option autoImplicit false

namespace Rpcpio.Typed

open Rpcpio.Library Rpcpio.Protocol Rpcpio.Client Rpcpio.Server Rpcpio.Stream

/-! ## The exchange with a handler -/

/-- An exchange at whose server the handler makes its result of the request bytes. -/
def stepHandled (z : Zlib) (f : Bytes → HandlerResult) (x : UnaryExchange) :
    RefusalEvent → Option UnaryExchange
  | .exchange .handlerReturn =>
      x.server.handlers.head?.bind fun request =>
        (x.server.step z (.handlerReturn 0 (f request))).map fun s => { x with server := s }
  | e => x.stepRefusal z e

/-- The exchanges with a handler as a machine. -/
def handled (z : Zlib) (f : Bytes → HandlerResult) : Machine UnaryExchange RefusalEvent :=
  ⟨stepHandled z f⟩

/-- The start of a call with the request bytes `request`. -/
def startHandled (z : Zlib) (ctx : Option ClientContext) (c : ServerCallState) (req : Request)
    (request : Bytes) (f : Bytes → HandlerResult) : UnaryExchange :=
  .start z ctx c req request (handlerStatus (f request).status) (f request).respBytes

/-- Nothing is left of a call with a handler. -/
def AtRest (z : Zlib) (f : Bytes → HandlerResult) (x : UnaryExchange) : Prop :=
  ∀ e, isRefusalEvent e = true → stepHandled z f x e = none

/-- The handler that returns is the one the request started, and its result is the exchange's. -/
structure Handles (f : Bytes → HandlerResult) (r : Bytes) (x : UnaryExchange) : Prop where
  status : x.status = handlerStatus (f r).status
  response : x.response = (f r).respBytes
  handlers : x.server.handlers = [] ∨ x.server.handlers = [r]

section

variable {z : Zlib} {f : Bytes → HandlerResult} {r : Bytes} {x x' : UnaryExchange}

/-- A handler that makes its result of the request is one whose result was fixed beforehand. -/
theorem Handles.step_eq (h : Handles f r x) (e : RefusalEvent) :
    stepHandled z f x e = x.stepRefusal z e := by
  cases e with
  | serverEnd | clientEnd => rfl
  | exchange e =>
      cases e with
      | handlerReturn =>
          rw [stepHandled, UnaryExchange.stepRefusal, UnaryExchange.step, h.status, h.response]
          rcases h.handlers with hnil | hone
          · simp [hnil, ServerCall.step]
          · rw [hone]
            rfl
      | _ => rfl

/-- The handlers of an exchange that is answered with a response. -/
theorem handles_exchange {m maxResponseSize k : Nat} {q : Bytes} {s : Status}
    (h : ExchangeInvariant m maxResponseSize r q s z k x) (hs : s = handlerStatus (f r).status)
    (hq : q = (f r).respBytes) : Handles f r x := by
  obtain ⟨hstatus, hresponse, ⟨_, hphase⟩ | ⟨_, _, _, hresp, _⟩⟩ := h
  · exact ⟨hstatus.trans hs, hresponse.trans hq,
      hphase.elim (fun h => Or.inl h.handlers) (fun h => Or.inr h.handlers)⟩
  · exact ⟨hstatus.trans hs, hresponse.trans hq, Or.inl hresp.handlers⟩

/-- The handlers of an exchange that is answered with an error. -/
theorem handles_refusal {ctx : Option ClientContext} {m maxResponseSize : Nat} {q : Bytes}
    {s : Status} (h : RefusalInvariant ctx m maxResponseSize r q s x)
    (hs : s = handlerStatus (f r).status) (hq : q = (f r).respBytes) : Handles f r x := by
  obtain ⟨hstatus, hresponse, ⟨_, hphase⟩ | ⟨_, _, href⟩⟩ := h
  · exact ⟨hstatus.trans hs, hresponse.trans hq,
      hphase.elim (fun h => Or.inl h.handlers) (fun h => Or.inr h.handlers)⟩
  · exact ⟨hstatus.trans hs, hresponse.trans hq, Or.inl href.handlers⟩

/-- An exchange that is answered with a response does not end behind a lone header block. -/
theorem stepRefusal_exchange {m maxResponseSize k : Nat} {q : Bytes} {s : Status} {e : RefusalEvent}
    (h : ExchangeInvariant m maxResponseSize r q s z k x) (hstep : x.stepRefusal z e = some x') :
    ∃ e', e = .exchange e' ∧ x.step z e' = some x' := by
  cases e with
  | exchange e => exact ⟨e, rfl, hstep⟩
  | serverEnd =>
      exfalso
      have hnone : .call .endEmpty ∉ x.server.trace := by
        obtain ⟨_, _, ⟨_, hphase⟩ | ⟨_, _, _, hresp, _⟩⟩ := h
        · rw [hphase.elim (·.trace) (·.trace)]
          simp
        · rw [hresp.trace]
          cases x.eof <;> cases x.server.call.closed <;> simp
      simp [UnaryExchange.stepRefusal, hnone] at hstep
  | clientEnd errorCode =>
      exfalso
      have hreg : x.registered = x.headArrived := by
        obtain ⟨_, _, ⟨hu, _⟩ | ⟨_, _, _, _, ha⟩⟩ := h
        · exact hu.registered.trans hu.headArrived.symm
        · exact ha.registered
      rw [UnaryExchange.stepRefusal, hreg] at hstep
      cases hx : x.headArrived <;> simp [hx] at hstep

/-- The handler's requests and the client's callbacks in an exchange that is answered with a
response. -/
theorem exchange_results {m maxResponseSize k : Nat} {q : Bytes} {s : Status}
    (h : ExchangeInvariant m maxResponseSize r q s z k x) :
    x.invocations <+: [r] ∧ (x.client.ioc ++ x.client.invoked).length ≤ 1 ∧
      ∀ res ∈ x.client.ioc ++ x.client.invoked, IsReply s q res := by
  obtain ⟨_, _, ⟨hu, hphase⟩ | ⟨_, _, _, hresp, ha⟩⟩ := h
  · refine ⟨?_, hu.client.results⟩
    rcases hphase with h | h
    · rw [h.invocations]
      exact List.nil_prefix
    · exact h.invocations ▸ List.prefix_rfl
  · obtain ⟨p, e, hat, _⟩ := ha.progress
    exact ⟨hresp.invocations ▸ List.prefix_rfl, hat.results⟩

/-- The exchange starts with the request unsent and nothing on the wire. -/
theorem exchangeInvariant_start {m maxMetadataSize maxResponseSize : Nat} {peerIdentity q : Bytes}
    {req : Request} {ctx : Option ClientContext} {s : Status}
    (hstart : ((ServerCallState.new m maxMetadataSize maxResponseSize peerIdentity).start z
      req).2.2 = true)
    (henc : negotiated z req.header = none) (hr : r.length < 2 ^ 32) :
    ExchangeInvariant m maxResponseSize r q s z (maxReceiveMessageSize ctx) (.start z ctx
      (.new m maxMetadataSize maxResponseSize peerIdentity) req r s q) := by
  obtain ⟨hstatus, hresponse, ⟨_, hrecv | hrun⟩ | ⟨_, _, href⟩⟩ :=
    refusalInvariant_start ctx (q := q) (s := s) hstart henc hr
  · exact ⟨hstatus, hresponse, Or.inl ⟨⟨rfl, rfl, rfl, ⟨rfl, rfl, rfl, rfl,
      FrameDecoder.reads_new _⟩, rfl, rfl, rfl, rfl, rfl, rfl⟩, Or.inl hrecv⟩⟩
  · cases hrun.ended
  · cases href.ended

/-- Calls whose events keep an invariant and use up a measure come to a rest. -/
theorem handled_rests {I : UnaryExchange → Prop} {μ : UnaryExchange → Nat}
    (hI : ∀ x e x', I x → stepHandled z f x e = some x' →
      I x' ∧ (isRefusalEvent e = true → μ x' < μ x)) (hx : I x) :
    (∃ n, ∀ es x', (∀ e ∈ es, isRefusalEvent e = true) →
        (handled z f).run x es = some x' → es.length ≤ n) ∧
      ∃ es x', (∀ e ∈ es, isRefusalEvent e = true) ∧ (handled z f).run x es = some x' ∧
        AtRest z f x' := by
  have hstep : ∀ a e b, I a → (handled z f).step a e = some b → I b :=
    fun a e b ha hb => (hI a e b ha hb).1
  have hdec : ∀ a e b, I a → isRefusalEvent e = true → (handled z f).step a e = some b →
      μ b < μ a :=
    fun a e b ha he hb => (hI a e b ha hb).2 he
  exact ⟨⟨μ x, fun es x' hes hrun => Machine.run_length_le hstep hdec es x x' hx hes hrun⟩,
    Machine.exists_quiescent hstep hdec x hx⟩

end

/-! ## The outcome -/

/-- What a unary call is for: the outcome of the handler, as a status and a response. A response has
to be serialized and to keep the server's limit. -/
def unaryOutcome {β : Type} (c : Codec β) (maxResponseSize : Nat) :
    Option (StatusOr β) → Status × Option β
  | none => (handlerThrew, none)
  | some result =>
      match result.value with
      | none => (result.status, none)
      | some m =>
          if intMax < c.byteSizeLong m then (responseTooLong, none)
          else if (c.serializeToArray m (c.byteSizeLong m)).isNone then
            (responseNotSerialized, none)
          else if maxResponseSize < c.byteSizeLong m then (responseTooLarge, none)
          else (Status.okStatus, some m)

section

variable {α β : Type} {creq : Codec α} {cresp : Codec β}

/-- A refusal never has an OK status. -/
theorem isOk_refusalStatus (s : Status) : (refusalStatus s).isOk = false := by
  cases hs : s.isOk with
  | false => rw [refusalStatus, if_neg (by simp [hs]), hs]
  | true =>
      rw [refusalStatus, if_pos hs]
      rfl

/-- The result of a refused call. -/
theorem typedResult_refusal {s : Status} {raw : UnaryResultRaw} (h : IsRefusal s raw)
    (hs : s.isOk = false) :
    (typedResult cresp raw).status = s ∧ (typedResult cresp raw).response = none := by
  simp [typedResult, h.status, hs]

/-- The result of an answered call. -/
theorem typedResult_reply {q : Bytes} {raw : UnaryResultRaw} {b : β}
    (h : IsReply Status.okStatus q raw) (hb : cresp.parseFromArray q (toInt q.length) = some b) :
    (typedResult cresp raw).status = Status.okStatus ∧
      (typedResult cresp raw).response = some b := by
  simp [typedResult, h.status, h.hasResponse, h.responseBytes, hb]

/-- **What the adapter returns is the outcome**, as a response or as a refusal. -/
theorem unaryOutcome_cases (hresp : cresp.Lawful) {f : Bytes → HandlerResult} {r : Bytes}
    (maxResponseSize : Nat) {o : Option (StatusOr β)}
    (hf : f r = match o with
      | none => ⟨none, []⟩
      | some result => serializeResponse cresp result) :
    (∃ result b, o = some result ∧ result.value = some b ∧
        cresp.byteSizeLong b = (f r).respBytes.length ∧ (f r).status = some Status.okStatus ∧
          (f r).respBytes.length ≤ maxResponseSize ∧ (f r).respBytes.length ≤ intMax ∧
            cresp.parseFromArray (f r).respBytes (toInt (f r).respBytes.length) = some b ∧
              unaryOutcome cresp maxResponseSize o = (Status.okStatus, some b)) ∨
      (((handlerStatus (f r).status).isOk = false ∨ maxResponseSize < (f r).respBytes.length) ∧
        unaryOutcome cresp maxResponseSize o =
          (refusalStatus (handlerStatus (f r).status), none)) := by
  rw [hf]
  cases o with
  | none => exact Or.inr ⟨Or.inl rfl, rfl⟩
  | some result =>
      cases hv : result.value with
      | none =>
          have hbad : result.status.isOk = false := by rw [result.isOk_eq, hv]; rfl
          refine Or.inr ⟨Or.inl ?_, ?_⟩
          · simp [serializeResponse, hv, handlerStatus, hbad]
          · simp [serializeResponse, hv, handlerStatus, unaryOutcome, refusalStatus, hbad]
      | some b =>
          by_cases hlong : intMax < cresp.byteSizeLong b
          · refine Or.inr ⟨Or.inl ?_, ?_⟩
            · simp only [serializeResponse, hv, if_pos hlong]
              rfl
            · simp only [serializeResponse, hv, unaryOutcome, if_pos hlong]
              rfl
          · cases hser : cresp.serializeToArray b (cresp.byteSizeLong b) with
            | none =>
                refine Or.inr ⟨Or.inl ?_, ?_⟩
                · simp only [serializeResponse, hv, if_neg hlong, hser]
                  rfl
                · simp only [serializeResponse, hv, unaryOutcome, if_neg hlong, hser]
                  rfl
            | some bytes =>
                have hlen := hresp.length_array _ _ _ hser
                have hfits : bytes.length ≤ intMax := by omega
                have hparse := hresp.parse_array b bytes hser hfits
                by_cases hlarge : maxResponseSize < cresp.byteSizeLong b
                · refine Or.inr ⟨Or.inr ?_, ?_⟩
                  · simp only [serializeResponse, hv, if_neg hlong, hser, hlen, hlarge]
                  · simp only [serializeResponse, hv, unaryOutcome, if_neg hlong, hser,
                      if_pos hlarge]
                    rfl
                · refine Or.inl ⟨result, b, rfl, hv, ?_⟩
                  simp only [serializeResponse, hv, if_neg hlong, hser, unaryOutcome,
                    if_neg hlarge, toInt_of_le hfits]
                  exact ⟨hlen.symm, trivial, by omega, hfits, hparse, rfl⟩

end

/-! ## The call -/

/-- What the caller of a typed unary call may rely on: the handler is called with the message that
was passed, at most once; the caller gets the outcome, at most once; and the call comes to a rest at
which both have happened. -/
structure Answered {α β : Type} (creq : Codec α) (cresp : Codec β) (z : Zlib)
    (f : Bytes → HandlerResult) (a : α) (outcome : Status × Option β) (x : UnaryExchange) :
    Prop where
  invoked : x.invocations.map (fun b => creq.parseFromArray b (toInt b.length)) <+: [some a]
  once : (x.client.ioc ++ x.client.invoked).length ≤ 1
  result : ∀ raw ∈ x.client.ioc ++ x.client.invoked,
    (typedResult cresp raw).status = outcome.1 ∧ (typedResult cresp raw).response = outcome.2
  bounded : ∃ n, ∀ es x', (∀ e ∈ es, isRefusalEvent e = true) →
    (handled z f).run x es = some x' → es.length ≤ n
  rests : ∃ es x', (∀ e ∈ es, isRefusalEvent e = true) ∧ (handled z f).run x es = some x' ∧
    AtRest z f x'
  answered : AtRest z f x →
    x.invocations.map (fun b => creq.parseFromArray b (toInt b.length)) = [some a] ∧
      x.client.ioc = [] ∧ ∃ raw, x.client.invoked = [raw]

section

variable {α β : Type} {creq : Codec α} {cresp : Codec β} {z : Zlib} {f : Bytes → HandlerResult}
  {a : α} {r : Bytes} {ctx : Option ClientContext} {m maxMetadataSize maxResponseSize : Nat}
  {peerIdentity : Bytes} {req : Request} {x : UnaryExchange}

/-- The handler is called with the message whose bytes it is invoked with. -/
theorem parsed_invocations (ha : creq.parseFromArray r (toInt r.length) = some a) {rs : List Bytes}
    (h : rs <+: [r]) : rs.map (fun b => creq.parseFromArray b (toInt b.length)) <+: [some a] := by
  have hmap := h.map fun b => creq.parseFromArray b (toInt b.length)
  simpa [ha] using hmap

/-- The calls whose handler returns a response within the limits. -/
theorem answered_reply (hstart : ((ServerCallState.new m maxMetadataSize maxResponseSize
      peerIdentity).start z req).2.2 = true)
    (henc : negotiated z req.header = none) (hr : r.length ≤ m ∧ r.length < 2 ^ 32)
    (ha : creq.parseFromArray r (toInt r.length) = some a) {b : β}
    (hok : (f r).status = some Status.okStatus)
    (hq : (f r).respBytes.length ≤ maxResponseSize ∧
      (f r).respBytes.length ≤ maxReceiveMessageSize ctx ∧ (f r).respBytes.length < 2 ^ 32)
    (hb : cresp.parseFromArray (f r).respBytes (toInt (f r).respBytes.length) = some b)
    (hx : (handled z f).Reaches
      (startHandled z ctx (.new m maxMetadataSize maxResponseSize peerIdentity) req r f) x) :
    Answered creq cresp z f a (Status.okStatus, some b) x := by
  have hwf := messageFrame_serverFormat hr.1 hr.2
  have hf := messageFrame_serverFormat hq.2.1 hq.2.2
  have hs : handlerStatus (f r).status = Status.okStatus := by rw [hok]; rfl
  let I := ExchangeInvariant m maxResponseSize r (f r).respBytes (handlerStatus (f r).status) z
    (maxReceiveMessageSize ctx)
  -- a step with the handler is a step of the exchange
  have hexchange : ∀ y e y', I y → stepHandled z f y e = some y' →
      ∃ e', e = .exchange e' ∧ y.step z e' = some y' := by
    intro y e y' hy h
    rw [(handles_exchange hy rfl rfl).step_eq] at h
    exact stepRefusal_exchange hy h
  have hI : ∀ y e y', I y → stepHandled z f y e = some y' →
      I y' ∧ (isRefusalEvent e = true → y'.remaining < y.remaining) := by
    intro y e y' hy h
    obtain ⟨e', rfl, hstep⟩ := hexchange y e y' hy h
    have hisOk : (handlerStatus (f r).status).isOk = true := by rw [hs]; rfl
    exact ⟨exchangeInvariant_step hwf hf hisOk hq.1 hq.2.2 hy hstep,
      fun he => remaining_decreases hwf hf hisOk hq.1 hq.2.2 hy he hstep⟩
  have hinv : I x := hx.invariant (fun y e y' hy h => (hI y e y' hy h).1)
    (exchangeInvariant_start hstart henc hr.2)
  have hrests := handled_rests hI hinv
  obtain ⟨hinvocations, honce, hresult⟩ := exchange_results hinv
  have hreply : ∀ raw, IsReply (handlerStatus (f r).status) (f r).respBytes raw →
      (typedResult cresp raw).status = Status.okStatus ∧
        (typedResult cresp raw).response = some b :=
    fun raw h => typedResult_reply (hs ▸ h) hb
  refine ⟨parsed_invocations ha hinvocations, honce,
    fun raw hraw => hreply raw (hresult raw hraw), hrests.1, hrests.2, fun hrest => ?_⟩
  -- an exchange at rest is complete
  have hquiet : x.Quiescent z := by
    intro e he
    have hnone := hrest (.exchange e) he
    rwa [(handles_exchange hinv rfl rfl).step_eq] at hnone
  obtain ⟨hinvoked, _, hioc, raw, hraw, _⟩ := quiescent_complete hinv hquiet
  exact ⟨by rw [hinvoked, List.map_singleton, ha], hioc, raw, hraw⟩

/-- The calls whose handler does not return a response within the limit. -/
theorem answered_refusal (hstart : ((ServerCallState.new m maxMetadataSize maxResponseSize
      peerIdentity).start z req).2.2 = true)
    (henc : negotiated z req.header = none) (hr : r.length ≤ m ∧ r.length < 2 ^ 32)
    (ha : creq.parseFromArray r (toInt r.length) = some a)
    (hbad : (handlerStatus (f r).status).isOk = false ∨ maxResponseSize < (f r).respBytes.length)
    (hx : (handled z f).Reaches
      (startHandled z ctx (.new m maxMetadataSize maxResponseSize peerIdentity) req r f) x) :
    Answered creq cresp z f a (refusalStatus (handlerStatus (f r).status), none) x := by
  have hwf := messageFrame_serverFormat hr.1 hr.2
  let I := RefusalInvariant ctx m maxResponseSize r (f r).respBytes (handlerStatus (f r).status)
  have hI : ∀ y e y', I y → stepHandled z f y e = some y' →
      I y' ∧ (isRefusalEvent e = true → y'.refusalRemaining < y.refusalRemaining) := by
    intro y e y' hy h
    rw [(handles_refusal hy rfl rfl).step_eq] at h
    exact refusalInvariant_step hwf hbad hy h
  have hinv : I x := hx.invariant (fun y e y' hy h => (hI y e y' hy h).1)
    (refusalInvariant_start _ hstart henc hr.2)
  have hrests := handled_rests hI hinv
  have hrefusal : ∀ raw, IsRefusal (refusalStatus (handlerStatus (f r).status)) raw →
      (typedResult cresp raw).status = refusalStatus (handlerStatus (f r).status) ∧
        (typedResult cresp raw).response = none :=
    fun raw h => typedResult_refusal h (isOk_refusalStatus _)
  refine ⟨parsed_invocations ha hinv.served.1, hinv.results.1,
    fun raw hraw => hrefusal raw (hinv.results.2 raw hraw), hrests.1, hrests.2, fun hrest => ?_⟩
  have hquiet : x.RefusalQuiescent z := by
    intro e he
    have hnone := hrest e he
    rwa [(handles_refusal hinv rfl rfl).step_eq] at hnone
  obtain ⟨hinvoked, _, hioc, raw, hraw, _⟩ := refusal_complete hinv hquiet
  exact ⟨by rw [hinvoked, List.map_singleton, ha], hioc, raw, hraw⟩

end

/-- A call whose request bytes are those of a message gets the outcome of the handler for it. -/
theorem answered_outcome {α β : Type} {creq : Codec α} {cresp : Codec β} (hreq : creq.Lawful)
    (hresp : cresp.Lawful) (h : α → Option (StatusOr β)) {z : Zlib}
    {m maxMetadataSize maxResponseSize : Nat} {peerIdentity : Bytes} {req : Request}
    {ctx : Option ClientContext} {a : α} {bytes : Bytes}
    (hbytes : requestBytes creq a = .ok bytes) (hsize : creq.byteSizeLong a ≤ m)
    (hstart : ((ServerCallState.new m maxMetadataSize maxResponseSize peerIdentity).start z
      req).2.2 = true)
    (henc : negotiated z req.header = none)
    (hreceive : ∀ result b, h a = some result → result.value = some b →
      cresp.byteSizeLong b ≤ maxResponseSize →
      cresp.byteSizeLong b ≤ maxReceiveMessageSize ctx) :
    ∀ x, (handled z (registerUnary creq cresp h)).Reaches (startHandled z ctx
      (.new m maxMetadataSize maxResponseSize peerIdentity) req bytes
      (registerUnary creq cresp h)) x →
    Answered creq cresp z (registerUnary creq cresp h) a
      (unaryOutcome cresp maxResponseSize (h a)) x := by
  intro x hx
  obtain ⟨hfits, hlen, hparse⟩ := requestBytes_ok hreq hbytes
  have hr : bytes.length ≤ m ∧ bytes.length < 2 ^ 32 := by
    refine ⟨by omega, ?_⟩
    simp only [intMax] at hfits
    omega
  rcases unaryOutcome_cases hresp maxResponseSize
      (registerUnary_requestBytes cresp hreq h hbytes) with
    ⟨result, b, hresult, hvalue, hblen, hok, hmax, hint, hb, hout⟩ | ⟨hbad, hout⟩
  · rw [hout]
    refine answered_reply hstart henc hr hparse hok ⟨hmax, ?_, ?_⟩ hb hx
    · rw [← hblen] at hmax ⊢
      exact hreceive result b hresult hvalue hmax
    · simp only [intMax] at hint
      omega
  · rw [hout]
    exact answered_refusal hstart henc hr hparse hbad hx

/-- **A typed unary call is a call of the handler.** For a request that is serialized, keeps the
server's limit and is sent without an encoding, and whatever the handler does: in every state that
the call can reach, whatever the chunks, the buffers, the metadata and the order in which the
streams end, the handler is called with the message that was passed, and the caller gets its
outcome. -/
theorem typed_unary_call {α β : Type} {creq : Codec α} {cresp : Codec β} (hreq : creq.Lawful)
    (hresp : cresp.Lawful) (h : α → Option (StatusOr β)) {z : Zlib}
    {m maxMetadataSize maxResponseSize : Nat} {peerIdentity : Bytes} {req : Request}
    {ctx : Option ClientContext} {a : α} {bytes : Bytes}
    (hbytes : requestBytes creq a = .ok bytes)
    (hstart : ((ServerCallState.new m maxMetadataSize maxResponseSize peerIdentity).start z
      req).2.2 = true)
    (henc : negotiated z req.header = none) (hsize : creq.byteSizeLong a ≤ m)
    (hreceive : ∀ result b, h a = some result → result.value = some b →
      cresp.byteSizeLong b ≤ maxResponseSize →
      cresp.byteSizeLong b ≤ maxReceiveMessageSize ctx) {x : UnaryExchange}
    (hx : (handled z (registerUnary creq cresp h)).Reaches (startHandled z ctx
      (.new m maxMetadataSize maxResponseSize peerIdentity) req bytes
      (registerUnary creq cresp h)) x) :
    Answered creq cresp z (registerUnary creq cresp h) a
      (unaryOutcome cresp maxResponseSize (h a)) x :=
  answered_outcome hreq hresp h hbytes hsize hstart henc hreceive x hx

/-- A message with the single field `bool flag = 1`. -/
def flagCodec : Codec Bool where
  byteSizeLong b := if b then 2 else 0
  serializeToArray b n := if n = (if b then 2 else 0) then some (if b then [8, 1] else []) else none
  serializeToString b := some (if b then [8, 1] else [])
  parseFromArray bytes n :=
    if n = 0 ∧ bytes = [] then some false else if n = 2 ∧ bytes = [8, 1] then some true else none
  parseFromString bytes :=
    if bytes = [] then some false else if bytes = [8, 1] then some true else none

theorem flagCodec_lawful : flagCodec.Lawful where
  length_array m n b h := by
    cases m <;> simp only [flagCodec, Option.ite_none_right_eq_some] at h <;>
      obtain ⟨rfl, h⟩ := h <;> cases h <;> rfl
  parse_array m b h _ := by
    cases m <;> cases h <;> rfl
  length_string m b h := by
    cases m <;> cases h <;> decide
  parse_string m b h := by
    cases m <;> cases h <;> rfl
  parse_stringArray m b h := by
    cases m <;> cases h <;> rfl

theorem length_flagCodec (m : Bool) (p : Bytes) (h : flagCodec.serializeToString m = some p) :
    p.length ≤ 2 := by
  cases m <;> cases h <;> decide

/-- A registered handler that negates the flag. -/
def negate : Bytes → HandlerResult := registerUnary flagCodec flagCodec fun b => some (.ofValue !b)

/-- The connection splits the request and the response. -/
def exampleNegation : List RefusalEvent :=
  [.exchange (.request 2), .exchange (.request 3), .exchange .requestEnd, .exchange .handlerReturn,
    .exchange .head, .exchange (.poll 6), .exchange (.deliver 6), .exchange (.poll 9),
    .exchange (.deliver 1), .exchange (.poll 9), .exchange .trailer, .exchange .runStrand,
    .exchange .runStrand, .exchange .runStrand, .exchange (.runIoc 0)]

theorem typed_unary_call_example :
    ∃ x, (handled Zlib.none negate).run (startHandled Zlib.none none (.new 4 100 100 []) ⟨[], []⟩ []
        negate) exampleNegation = some x ∧
      x.client.invoked.map (fun raw => (typedResult flagCodec raw).response) = [some true] ∧
      Answered flagCodec flagCodec Zlib.none negate false (Status.okStatus, some true) x := by
  have hrun : ((handled Zlib.none negate).run (startHandled Zlib.none none (.new 4 100 100 [])
      ⟨[], []⟩ [] negate) exampleNegation).map
        (fun x => x.client.invoked.map fun raw => (typedResult flagCodec raw).response) =
      some [some true] := by decide +kernel
  obtain ⟨x, hx, hres⟩ := Option.map_eq_some_iff.1 hrun
  exact ⟨x, hx, hres, typed_unary_call (a := false) flagCodec_lawful flagCodec_lawful _ rfl
    (by decide) (by decide) (by decide) (fun _ _ h hv _ => by cases h; cases hv; decide) ⟨_, hx⟩⟩

end Rpcpio.Typed
