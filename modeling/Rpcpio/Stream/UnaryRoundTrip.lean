import Rpcpio.Stream.CompressedFrames
import Rpcpio.Stream.UnaryExchange

/-!
# The round trip of a unary call

`Progress` says how far the client has come with the bytes and the trailers of the response, and is
the abstract form of `ClientCallState` (`At.step`); the closures on the strand are a run of it. The
server is first receiving, then running its handler, then responding. `unary_round_trip` joins the
two: whatever the chunks and the buffers, the handler gets the request once, and the client
completes once with the response.
-/

set_option autoImplicit false

namespace Rpcpio.Stream

open Rpcpio.Library Rpcpio.Protocol Rpcpio.Client Rpcpio.Server

/-! ## The client -/

/-- How far a client has come: the bytes its decoder has read, and whether it has handled the
trailers. -/
structure Progress where
  parsed : Bytes
  done : Bool
  deriving DecidableEq, Repr

namespace Progress

/-- A closure on the strand, for the response frame `f` and the trailers `t`; after the trailers
nothing matters. -/
def step (f : Bytes) (t : HeaderMap) (p : Progress) : UnaryEvent → Option Progress
  | .data chunk =>
      if p.done then some p
      else if chunk.isEmpty then if p.parsed = f then some p else none
      else if (p.parsed ++ chunk).isPrefixOf f then some { p with parsed := p.parsed ++ chunk }
      else none
  | .trailers h =>
      if p.done then some p
      else if p.parsed = f ∧ h = t then some { p with done := true }
      else none
  | .close _ => if p.done then some p else none
  | _ => none

/-- The closures as a machine. -/
def machine (f : Bytes) (t : HeaderMap) : Machine Progress UnaryEvent := ⟨step f t⟩

end Progress

/-- The result of a client for an OK status and a message. -/
structure IsReply (s : Status) (q : Bytes) (r : UnaryResultRaw) : Prop where
  status : r.status = s
  hasResponse : r.hasResponse = true
  responseBytes : r.responseBytes = q

/-- A client with the limit `k` has come so far with the response `q` and the status `s`. -/
def At (k : Nat) (s : Status) (q : Bytes) (c : UnaryCompletion) (p : Progress) : Prop :=
  if p.done then
    c.call.completed = true ∧ ∃ r, c.ioc ++ c.invoked = [r] ∧ IsReply s q r
  else
    c.call.completed = false ∧ c.ioc = [] ∧ c.invoked = [] ∧ c.call.responseEncoding = none ∧
      FrameDecoder.Reads k ((serverFormat k).scan (.pending []) p.parsed) c.call.decoder

section

variable {k : Nat} {s : Status} {q : Bytes} {t : HeaderMap}

/-- A completed client ignores the rest of its closures. -/
theorem step_completed {z : Zlib} {c c' : UnaryCompletion} {e : UnaryEvent}
    (hc : c.call.completed = true) (he : (∃ chunk, e = .data chunk) ∨ (∃ h, e = .trailers h) ∨
      ∃ errorCode, e = .close errorCode) (h : (UnaryCompletion.machine z).step c e = some c') :
    c' = c := by
  rcases he with ⟨chunk, rfl⟩ | ⟨hd, rfl⟩ | ⟨errorCode, rfl⟩
  · cases h
    simp [UnaryCompletion.after, ClientCallState.onData, hc]
  · cases h
    simp [UnaryCompletion.after, ClientCallState.onTrailers, hc]
  · cases h
    simp [UnaryCompletion.after, ClientCallState.onStreamClose, ClientCallState.closeResult, hc,
      ClientCallState.completeWith]

/-- The result of OK trailers behind a message. -/
theorem trailersResult_message {z : Zlib} {c : ClientCallState} (hopen : c.completed = false)
    (henc : c.responseEncoding = none) (hdone : c.decoder.isDone = true)
    (hpay : c.decoder.payload = q) (ht : extractTrailerStatus t = s) (hs : s.isOk = true) :
    ∃ r, c.trailersResult z t = some r ∧ IsReply s q r := by
  have hneed : c.needsDecompression t = false := by
    simp [ClientCallState.needsDecompression, henc]
  refine ⟨{ c.result with
    status := s
    trailingMetadata :=
      (nghttp2HeadersToMetadata t c.result.trailingMetadata kMaxMetadataSize).2
    responseBytes := c.decoder.takePayload.1
    hasResponse := c.decoder.isDone }, ?_, rfl, hdone, hpay⟩
  simp [ClientCallState.trailersResult, hopen, ht, hs, hneed]

/-- **The client follows its progress.** -/
theorem At.step {z : Zlib} {c c' : UnaryCompletion} {p p' : Progress} {e : UnaryEvent}
    (hf : (serverFormat k).WellFormed (messageFrame 0 q)) (ht : extractTrailerStatus t = s)
    (hs : s.isOk = true) (h : At k s q c p) (hp : p.step (frameOf q) t e = some p')
    (hc : (UnaryCompletion.machine z).step c e = some c') : At k s q c' p' := by
  cases hdone : p.done with
  -- a complete call ignores the rest of its stream
  | true =>
      have hsame : p' = p ∧ ((∃ chunk, e = .data chunk) ∨ (∃ h, e = .trailers h) ∨
          ∃ errorCode, e = .close errorCode) := by
        cases e with
        | data chunk => simpa [Progress.step, hdone, eq_comm] using hp
        -- the whole frame has arrived: the trailers' status is the reply's
        | trailers hd => simpa [Progress.step, hdone, eq_comm] using hp
        | close errorCode => simpa [Progress.step, hdone, eq_comm] using hp
        | _ => cases hp
      have hcomp : c.call.completed = true := by
        rw [At, if_pos hdone] at h
        exact h.1
      rw [hsame.1, step_completed hcomp hsame.2 hc]
      exact h
  | false =>
      rw [At, if_neg (by simp [hdone])] at h
      obtain ⟨hopen, hioc, hinv, henc, hreads⟩ := h
      cases e with
      | data chunk =>
          rw [Progress.step, if_neg (by simp [hdone])] at hp
          cases hc
          by_cases hemp : chunk.isEmpty = true
          · -- the end of the data changes no complete message
            rw [if_pos hemp, Option.ite_none_right_eq_some] at hp
            obtain ⟨hall, hp⟩ := hp
            cases hp
            obtain rfl := List.isEmpty_iff.1 hemp
            have hend := (FrameDecoder.reads_frame hf (t := [])
              (by rw [hall, List.append_nil]; rfl) hreads)
            have hmark := FrameDecoder.markEos_of_final (d := c.call.decoder)
              (Or.inr (by simp [FrameDecoder.isDone, (hend.2 rfl).1]))
            rw [At, if_neg (by simp [hdone])]
            have hfeed : c.call.feedChunk [] = c.call.decoder := hmark
            have hres : c.call.dataResult [] = none := by
              simp [ClientCallState.dataResult, hopen, hfeed, hend.1]
            have hsame : c.call.onData [] = (c.call, []) := by
              rw [ClientCallState.onData, if_neg (by simp [hopen]), hfeed, hres]
              rfl
            simp only [UnaryCompletion.after, hsame, List.append_nil]
            exact ⟨hopen, hioc, hinv, henc, hreads⟩
          · rw [if_neg hemp, Option.ite_none_right_eq_some] at hp
            obtain ⟨hpre, hp⟩ := hp
            cases hp
            obtain ⟨rest, hrest⟩ := List.isPrefixOf_iff_prefix.1 hpre
            have hfed := FrameDecoder.reads_feed hreads chunk
            have hok := (FrameDecoder.reads_frame hf hrest hfed).1
            have hnext : c.call.onData chunk =
                ({ c.call with decoder := c.call.decoder.feed chunk }, []) := by
              simp [ClientCallState.onData, hopen, ClientCallState.feedChunk, hemp,
                ClientCallState.dataResult, hok, ClientCallState.completeWith]
            rw [At, if_neg (by simp [hdone])]
            simp only [UnaryCompletion.after, hnext, List.append_nil]
            exact ⟨hopen, hioc, hinv, henc, hfed⟩
      | trailers hd =>
          rw [Progress.step, if_neg (by simp [hdone]), Option.ite_none_right_eq_some] at hp
          obtain ⟨⟨hall, rfl⟩, hp⟩ := hp
          cases hp
          cases hc
          have hend := (FrameDecoder.reads_frame hf (t := [])
            (by rw [hall, List.append_nil]; rfl) hreads).2 rfl
          obtain ⟨r, hr, hreply⟩ := trailersResult_message (z := z) hopen henc
            (by simp [FrameDecoder.isDone, hend.1]) hend.2.1 ht hs
          rw [At, if_pos rfl]
          have hpost : c.call.onTrailers z hd = ({ c.call with
              trailersDone := true
              completed := true
              timer := c.call.timer.cancel }, [r]) := by
            simp [ClientCallState.onTrailers, hopen, hr, ClientCallState.completeWith,
              ClientCallState.complete]
          simp only [UnaryCompletion.after, hpost, hioc, hinv]
          exact ⟨trivial, r, rfl, hreply⟩
      | close errorCode =>
          rw [Progress.step, if_neg (by simp [hdone])] at hp
          cases hp
      | _ => cases hp

/-- Running a posted callback. -/
theorem At.runIoc {z : Zlib} {c c' : UnaryCompletion} {p : Progress} {i : Nat} (h : At k s q c p)
    (hc : (UnaryCompletion.machine z).step c (.runIoc i) = some c') : At k s q c' p := by
  obtain ⟨r, hr, rfl⟩ := Option.map_eq_some_iff.1 hc
  cases hdone : p.done with
  | false =>
      rw [At, if_neg (by simp [hdone])] at h
      rw [h.2.1] at hr
      cases hr
  | true =>
      rw [At, if_pos hdone] at h ⊢
      obtain ⟨hcomp, r', hone, hreply⟩ := h
      refine ⟨hcomp, r', ?_, hreply⟩
      cases hioc : c.ioc with
      | nil =>
          rw [hioc] at hr
          cases hr
      | cons a rest =>
          rw [hioc] at hone hr
          obtain ⟨rfl, hrest⟩ := List.cons.inj hone
          obtain ⟨rfl, hinv⟩ := List.append_eq_nil_iff.1 hrest
          rw [List.getElem?_singleton] at hr
          split at hr
          · rename_i hi
            cases hr
            simp [hi, hinv]
          · cases hr

/-- The head of a response with a message is accepted, and negotiates no encoding. -/
theorem attach_streamHead {z y : Zlib} {c : ClientCallState} (henc : c.responseEncoding = none)
    (ctx : ServerContext) :
    ∃ initial, c.attach z ⟨200, streamHead y ctx⟩ =
      ({ c with
          result := { c.result with initialMetadata := initial }
          responseEncoding := none
          initialMetaDone := true }, [], true) := by
  have hverdict := headVerdict_streamHead y ctx
  have hnone : Multimap.find (text "grpc-encoding") (streamHead y ctx) = none :=
    find_common_eq_none (by decide) (by decide) (by decide) _
  have hhead : c.headResult z ⟨200, streamHead y ctx⟩ = .ok none := by
    unfold headVerdict at hverdict
    split at hverdict
    · cases hverdict
    · rename_i hgrpc
      split at hverdict
      · cases hverdict
      · split at hverdict
        · cases hverdict
        · rename_i hstatus
          simp [ClientCallState.headResult, hgrpc, hnone, hstatus, henc]
  refine ⟨(nghttp2HeadersToMetadata (streamHead y ctx) c.result.initialMetadata
    kMaxMetadataSize).2, ?_⟩
  rw [ClientCallState.attach, hhead]

/-- A client that gets the head is where it was. -/
theorem At.attach {z y : Zlib} {c c' : UnaryCompletion} {p : Progress} (ctx : ServerContext)
    (h : At k s q c p) (hopen : p.done = false)
    (hc : (UnaryCompletion.machine z).step c (.attach ⟨200, streamHead y ctx⟩) = some c') :
    At k s q c' p ∧ (c.call.attach z ⟨200, streamHead y ctx⟩).2.2 = true := by
  rw [At, if_neg (by simp [hopen])] at h ⊢
  obtain ⟨hcomp, hioc, hinv, henc, hreads⟩ := h
  obtain ⟨initial, hattach⟩ := attach_streamHead (z := z) (y := y) henc ctx
  cases hc
  rw [hattach]
  simp only [UnaryCompletion.after, List.append_nil]
  exact ⟨⟨hcomp, hioc, hinv, trivial, hreads⟩, trivial⟩

end

/-! ## The server -/

section

variable (m maxResponseSize : Nat) (r q : Bytes) (s : Status)

/-- The request is arriving. -/
structure Receiving (x : UnaryExchange) : Prop where
  ended : x.requestEnded = false
  started : x.server.started = true
  registered : x.server.registered = true
  responded : x.server.call.responded = false
  closed : x.server.call.closed = false
  encoding : x.server.call.requestEncoding = none
  limit : x.server.call.maxResponseSize = maxResponseSize
  handlers : x.server.handlers = []
  body : x.server.body = none
  trace : x.server.trace = []
  invocations : x.invocations = []
  reads : ∃ received, received ++ x.upstream = frameOf r ∧
    FrameDecoder.Reads m ((serverFormat m).scan (.pending []) received) x.server.call.decoder

/-- The handler is running. -/
structure Running (x : UnaryExchange) : Prop where
  ended : x.requestEnded = true
  started : x.server.started = true
  upstream : x.upstream = []
  responded : x.server.call.responded = false
  closed : x.server.call.closed = false
  limit : x.server.call.maxResponseSize = maxResponseSize
  handlers : x.server.handlers = [r]
  body : x.server.body = none
  trace : x.server.trace = []
  invocations : x.invocations = [r]

/-- The response is being sent, with a head and trailers. -/
structure Responding (head trailers : HeaderMap) (x : UnaryExchange) : Prop where
  ended : x.requestEnded = true
  upstream : x.upstream = []
  started : x.server.started = true
  responded : x.server.call.responded = true
  handlers : x.server.handlers = []
  invocations : x.invocations = [r]
  body : ∃ b, x.server.body = some b ∧ b.frame = frameOf q ∧ b.trailers = trailers ∧
    b.offset ≤ (frameOf q).length ∧ x.emitted = (frameOf q).take b.offset ∧
      (x.eof = true → b.offset = (frameOf q).length)
  trace : x.server.trace = [.call (.writeHead 200 head), .call .endWith] ++
    (if x.eof then [.call (.writeTrailer trailers)] else []) ++
      if x.server.call.closed then [.closed] else []
  closed : x.server.call.closed = true → x.eof = true

/-- Nothing of the response has been sent. -/
structure Unsent (k : Nat) (x : UnaryExchange) : Prop where
  eof : x.eof = false
  emitted : x.emitted = []
  wire : x.wire = []
  client : At k s q x.client ⟨[], false⟩
  strand : x.strand = []
  headArrived : x.headArrived = false
  registered : x.registered = false
  dataEnded : x.dataEnded = false
  trailersArrived : x.trailersArrived = false
  clientClosed : x.clientClosed = false

/-- What the client has of the response: it has come to `p`, and the closures on its strand lead on
to all that has arrived. -/
structure Arriving (k : Nat) (trailers : HeaderMap) (x : UnaryExchange) : Prop where
  progress : ∃ p e : Progress, At k s q x.client p ∧
    (Progress.machine (frameOf q) trailers).run p x.strand = some e ∧
      x.emitted = e.parsed ++ x.wire ∧ e.done = x.trailersArrived ∧
        (x.headArrived = false → p = ⟨[], false⟩ ∧ x.strand = [])
  registered : x.registered = x.headArrived
  trailersArrived : x.trailersArrived = true → x.eof = true ∧ x.wire = []
  clientClosed : x.clientClosed = true → x.trailersArrived = true

/-- **The invariant of an exchange**: request, handler, response. -/
def ExchangeInvariant (z : Zlib) (k : Nat) (x : UnaryExchange) : Prop :=
  x.status = s ∧ x.response = q ∧
    ((Unsent q s k x ∧ (Receiving m maxResponseSize r x ∨ Running maxResponseSize r x)) ∨
      ∃ (ctx : ServerContext) (trailers : HeaderMap), extractTrailerStatus trailers = s ∧
        Responding r q (streamHead z ctx) trailers x ∧ Arriving q s k trailers x)

end

section

variable {m maxResponseSize k : Nat} {r q : Bytes} {s : Status} {z : Zlib}
  {x x' : UnaryExchange}

/-- A chunk that the decoder accepts. -/
theorem onData_accepted {c : ServerCallState} {chunk : Bytes} (hresp : c.responded = false)
    (hne : chunk ≠ []) (hok : (c.decoder.feed chunk).isError = false) :
    c.onData z chunk = ({ c with decoder := c.decoder.feed chunk }, none, none) := by
  simp [ServerCallState.onData, hresp, hne, hok]

/-- The end of a request with a message. -/
theorem onData_ended {c : ServerCallState} (hresp : c.responded = false)
    (henc : c.requestEncoding = none) (hdone : c.decoder.state = .done) :
    c.onData z [] =
      ({ c with decoder := c.decoder.takePayload.2 }, none, some c.decoder.payload) := by
  have hmark := FrameDecoder.markEos_of_final (d := c.decoder)
    (Or.inr (by simp [FrameDecoder.isDone, hdone]))
  have hcall : ({ c with decoder := c.decoder.markEos } : ServerCallState) = c := by rw [hmark]
  rw [ServerCallState.onData, if_neg (by simp [hresp]), if_pos List.isEmpty_nil, hcall]
  simp [ServerCallState.onRequestEnd, hresp, FrameDecoder.isError, FrameDecoder.isDone, hdone, henc,
    FrameDecoder.takePayload]

/-- The handler returns OK with a response within the limit. -/
theorem handlerReturned_ok {c : ServerCallState} (hresp : c.responded = false)
    (hs : s.isOk = true) (hq : q.length ≤ c.maxResponseSize) (hlen : q.length < 2 ^ 32) :
    c.handlerReturned z ⟨some s, q⟩ =
      ({ c with responded := true, timer := c.timer.cancel },
        some ⟨streamHead z c.ctx,
          some ⟨frameOf q, 0, buildTrailers s c.ctx.trailingMetadata []⟩⟩) := by
  have hle : ¬ c.maxResponseSize < q.length := Nat.not_lt.2 hq
  simp [ServerCallState.handlerReturned, hresp, ServerCallState.sendResponse,
    ServerCallState.responseReply, handlerStatus, hs, hle, encodeFrame_frameOf hlen, streamHead]

/-- A chunk of the request arrives. -/
theorem Receiving.request (hwf : (serverFormat m).WellFormed (messageFrame 0 r))
    (h : Receiving m maxResponseSize r x) {n : Nat} (hn : 0 < n) (hle : n ≤ x.upstream.length)
    (hstep : ({ x with upstream := x.upstream.drop n } : UnaryExchange).serverData z
      (x.upstream.take n) = some x') :
    Receiving m maxResponseSize r x' ∧ ∃ server, x' = { x with
      upstream := x.upstream.drop n
      server := server } := by
  obtain ⟨received, hall, hreads⟩ := h.reads
  have hne : x.upstream.take n ≠ [] := by
    intro hnil
    have hlen := congrArg List.length hnil
    rw [List.length_take, List.length_nil] at hlen
    omega
  have hfed := FrameDecoder.reads_feed hreads (x.upstream.take n)
  have hcut : received ++ x.upstream.take n ++ x.upstream.drop n = frameOf r := by
    rw [List.append_assoc, List.take_append_drop, hall]
  have hok := (FrameDecoder.reads_frame hwf hcut hfed).1
  have hdata := onData_accepted (z := z) h.responded hne hok
  have hserver : x.server.step z (.data (x.upstream.take n)) = some ({ x.server with
      call := { x.server.call with decoder := x.server.call.decoder.feed (x.upstream.take n) }
        }) := by
    simp [ServerCall.step, h.registered, hdata, ServerCall.after, replyEffects]
  simp only [UnaryExchange.serverData, hserver, hdata, Option.map_some, Option.toList_none,
    List.append_nil, Option.some.injEq] at hstep
  subst hstep
  exact ⟨{ h with reads := ⟨_, hcut, hfed⟩ }, _, rfl⟩

/-- The request ends, and the handler is invoked with it. -/
theorem Receiving.requestEnd (hwf : (serverFormat m).WellFormed (messageFrame 0 r))
    (h : Receiving m maxResponseSize r x) (hnil : x.upstream = [])
    (hstep : ({ x with requestEnded := true } : UnaryExchange).serverData z [] = some x') :
    Running maxResponseSize r x' ∧ ∃ server invocations, x' = { x with
      requestEnded := true
      server := server
      invocations := invocations } := by
  obtain ⟨received, hall, hreads⟩ := h.reads
  rw [hnil] at hall
  obtain ⟨hdone, hpay, _⟩ := (FrameDecoder.reads_frame hwf hall hreads).2 rfl
  have hdata := onData_ended (z := z) h.responded h.encoding hdone
  have hserver : x.server.step z (.data []) = some ({ x.server with
      call := { x.server.call with decoder := x.server.call.decoder.takePayload.2 }
      handlers := [r] }) := by
    simp [ServerCall.step, h.registered, hdata, ServerCall.after, replyEffects, h.handlers, hpay,
      messageFrame]
  simp only [UnaryExchange.serverData, hserver, hdata, Option.map_some, Option.toList_some, hpay,
    Option.some.injEq] at hstep
  subst hstep
  exact ⟨⟨rfl, h.started, hnil, h.responded, h.closed, h.limit, rfl, h.body, h.trace,
    by rw [h.invocations]; rfl⟩, _, _, rfl⟩

/-- The handler adds metadata. -/
theorem Running.addMetadata (h : Running maxResponseSize r x) {trailing : Bool}
    {key value : Bytes} {server : ServerCall}
    (hstep : x.server.step z (.addMetadata trailing key value) = some server) :
    Running maxResponseSize r { x with server := server } := by
  simp only [ServerCall.step, Option.ite_none_left_eq_some, Option.some.injEq] at hstep
  obtain ⟨_, rfl⟩ := hstep
  exact { h with }

/-- The handler returns, and the response is ready to be sent. -/
theorem Running.handlerReturn (h : Running maxResponseSize r x) (hu : Unsent q s k x)
    (hs : s.isOk = true) (hq : q.length ≤ maxResponseSize) (hlen : q.length < 2 ^ 32)
    {server : ServerCall}
    (hstep : x.server.step z (.handlerReturn 0 ⟨some s, q⟩) = some server) :
    Responding r q (streamHead z x.server.call.ctx)
      (buildTrailers s x.server.call.ctx.trailingMetadata []) { x with server := server } := by
  have hret := handlerReturned_ok (z := z) h.responded hs (by rw [h.limit]; exact hq) hlen
  simp only [ServerCall.step, h.handlers, List.getElem?_cons_zero, Option.map_some, hret,
    ServerCall.after, replyEffects, Reply.effects, Reply.calls, h.trace, Option.some.injEq]
    at hstep
  subst hstep
  refine ⟨h.ended, h.upstream, h.started, rfl, rfl, h.invocations,
    ⟨_, rfl, rfl, rfl, Nat.zero_le _, ?_, fun heof => ?_⟩, ?_, fun hclosed => ?_⟩
  · exact hu.emitted
  · rw [hu.eof] at heof
    cases heof
  · simp [hu.eof, h.closed]
  · rw [show _ = x.server.call.closed from rfl, h.closed] at hclosed
    cases hclosed

variable {head trailers : HeaderMap}

/-- **A poll** emits the next bytes of the frame, or the trailers behind the last of them. -/
theorem Responding.poll (h : Responding r q head trailers x) {len : Nat} (hlen : 0 < len)
    (heof : x.eof = false) (hstep : x.step z (.poll len) = some x') :
    Responding r q head trailers x' ∧ ∃ server bytes, server.call = x.server.call ∧ x' = { x with
      server := server
      eof := bytes.isEmpty
      emitted := x.emitted ++ bytes
      wire := x.wire ++ bytes } := by
  obtain ⟨b, hb, hframe, htrailers, hoff, hemitted, _⟩ := h.body
  have hclosed : x.server.call.closed = false := by
    cases hc : x.server.call.closed with
    | false => rfl
    | true =>
        have := h.closed hc
        rw [heof] at this
        cases this
  have hserver : x.server.step z (.poll len) = some { x.server with
      body := some (b.generate len).1
      trace := x.server.trace ++ (b.generate len).2.2.map .call } := by
    simp [ServerCall.step, hb, hclosed]
  simp only [UnaryExchange.step, hlen, heof, hb, hserver, decide_true, Bool.not_false,
    Bool.and_self, if_true, Option.bind_some, Option.map_some, Option.some.injEq] at hstep
  have htrace := h.trace
  rw [heof, hclosed] at htrace
  -- the generator answers with the end of the body, or with the next bytes of the frame
  by_cases hend : b.offset = (frameOf q).length
  · rw [ResponseBody.generate_end (by rw [hframe, hend])] at hstep
    refine ⟨?_, x'.server, [], by rw [← hstep]; rfl, by rw [← hstep]; simp [UnaryExchange.take]⟩
    subst hstep
    refine { h with body := ⟨b, rfl, hframe, htrailers, hoff, hemitted, fun _ => hend⟩
                    trace := ?_
                    closed := fun _ => rfl }
    simp [UnaryExchange.take, htrace, htrailers, hclosed]
  · have hlt : b.offset < (frameOf q).length := Nat.lt_of_le_of_ne hoff hend
    have hgen := ResponseBody.generate_bytes (b := b) (by rw [hframe]; exact hlt) len
    rw [hframe] at hgen
    rw [hgen] at hstep
    generalize hn : min ((frameOf q).length - b.offset) len = n at hstep
    -- the block is not empty, so that the session does not take it for the end
    have hbytes : (((frameOf q).drop b.offset).take n).isEmpty = false := by
      rw [List.isEmpty_eq_false_iff, ← List.length_pos_iff, List.length_take, List.length_drop]
      omega
    refine ⟨?_, x'.server, ((frameOf q).drop b.offset).take n, by rw [← hstep]; rfl, by
      rw [← hstep, hbytes]
      simp [UnaryExchange.take]⟩
    subst hstep
    refine { h with body := ⟨_, rfl, rfl, htrailers, ?_, ?_, fun he => ?_⟩
                    trace := ?_
                    closed := fun hc => ?_ }
    · show b.offset + n ≤ _
      omega
    · show x.emitted ++ _ = (frameOf q).take (b.offset + n)
      rw [hemitted, List.take_add]
    · cases he
    · simp [UnaryExchange.take, htrace, hclosed]
    · have hc' : x.server.call.closed = true := hc
      rw [hclosed] at hc'
      cases hc'

/-- The server's stream closes when the response is sent. -/
theorem Responding.close (h : Responding r q head trailers x) {server : ServerCall}
    (heof : x.eof = true) (hopen : x.server.call.closed = false)
    (hstep : x.server.step z .close = some server) :
    Responding r q head trailers { x with server := server } := by
  have hclose : x.server.call.onClose =
      { x.server.call with closed := true, timer := x.server.call.timer.cancel } := by
    simp [ServerCallState.onClose, hopen, h.responded]
  simp only [ServerCall.step, h.started, if_true, hclose, hopen, Option.some.injEq] at hstep
  subst hstep
  refine { h with started := rfl, trace := ?_, closed := fun _ => heof }
  have htrace := h.trace
  rw [hopen] at htrace
  simp [htrace]

/-! ## The client's end of the response -/

/-- The progress at the end of the strand has read part of the frame. -/
theorem Responding.emitted (h : Responding r q head trailers x) :
    x.emitted <+: frameOf q ∧ (x.eof = true → x.emitted = frameOf q) := by
  obtain ⟨b, _, _, _, _, hemitted, hend⟩ := h.body
  refine ⟨hemitted ▸ List.take_prefix _ _, fun heof => ?_⟩
  rw [hemitted, hend heof, List.take_length]

/-- Posting a closure that the progress accepts. -/
theorem run_post {f : Bytes} {t : HeaderMap} {p e e' : Progress} {strand : List UnaryEvent}
    {task : UnaryEvent} (h : (Progress.machine f t).run p strand = some e)
    (hstep : e.step f t task = some e') :
    (Progress.machine f t).run p (strand ++ [task]) = some e' :=
  Machine.run_append.2 ⟨e, h, Machine.run_cons_some.2 ⟨e', hstep, rfl⟩⟩

/-- The session gets more bytes, or the end of the data. -/
theorem Arriving.grow (h : Arriving q s k trailers x) (hopen : x.eof = false)
    {server : ServerCall} {bytes : Bytes} {eof : Bool} :
    Arriving q s k trailers { x with
      server := server
      eof := eof
      emitted := x.emitted ++ bytes
      wire := x.wire ++ bytes } := by
  obtain ⟨p, e, hat, hrun, hemitted, hdone, hnew⟩ := h.progress
  have harr : x.trailersArrived = false := by
    cases ht : x.trailersArrived with
    | false => rfl
    | true =>
        have heof := (h.trailersArrived ht).1
        rw [hopen] at heof
        cases heof
  refine ⟨⟨p, e, hat, hrun, ?_, hdone, hnew⟩, h.registered, fun ht => ?_, h.clientClosed⟩
  · show x.emitted ++ bytes = e.parsed ++ (x.wire ++ bytes)
    rw [hemitted, List.append_assoc]
  · rw [show x.trailersArrived = true from ht] at harr
    cases harr

/-- A chunk of the response arrives. -/
theorem Arriving.deliver (h : Arriving q s k trailers x) (hpre : x.emitted <+: frameOf q)
    {n : Nat} (hreg : x.registered = true) (hn : 0 < n) (hle : n ≤ x.wire.length) :
    Arriving q s k trailers
      (({ x with wire := x.wire.drop n } : UnaryExchange).post (.data (x.wire.take n))) := by
  obtain ⟨p, e, hat, hrun, hemitted, hdone, hnew⟩ := h.progress
  have harr : x.trailersArrived = false := by
    cases ht : x.trailersArrived with
    | false => rfl
    | true =>
        rw [(h.trailersArrived ht).2, List.length_nil] at hle
        omega
  have hne : (x.wire.take n).isEmpty = false := by
    rw [List.isEmpty_eq_false_iff, ← List.length_pos_iff, List.length_take]
    omega
  have hfits : (e.parsed ++ x.wire.take n).isPrefixOf (frameOf q) = true := by
    rw [List.isPrefixOf_iff_prefix]
    refine List.IsPrefix.trans ⟨x.wire.drop n, ?_⟩ hpre
    rw [List.append_assoc, List.take_append_drop, hemitted]
  have hstep : e.step (frameOf q) trailers (.data (x.wire.take n)) =
      some { e with parsed := e.parsed ++ x.wire.take n } := by
    simp [Progress.step, hdone, harr, hne, hfits]
  refine ⟨⟨p, _, hat, run_post hrun hstep, ?_, hdone, fun hh => ?_⟩, h.registered, fun ht => ?_,
    h.clientClosed⟩
  · show x.emitted = e.parsed ++ x.wire.take n ++ x.wire.drop n
    rw [List.append_assoc, List.take_append_drop, hemitted]
  · rw [h.registered, show x.headArrived = false from hh] at hreg
    cases hreg
  · rw [show x.trailersArrived = true from ht] at harr
    cases harr

/-- The end of the data arrives behind all of them. -/
theorem Arriving.dataEnd (h : Arriving q s k trailers x) (hall : x.emitted = frameOf q)
    (hreg : x.registered = true) (hwire : x.wire = []) :
    Arriving q s k trailers (({ x with dataEnded := true } : UnaryExchange).post (.data [])) := by
  obtain ⟨p, e, hat, hrun, hemitted, hdone, hnew⟩ := h.progress
  have hparsed : e.parsed = frameOf q := by rw [← hall, hemitted, hwire, List.append_nil]
  have hstep : e.step (frameOf q) trailers (.data []) = some e := by
    cases hd : e.done <;> simp [Progress.step, hd, hparsed]
  refine ⟨⟨p, e, hat, run_post hrun hstep, hemitted, hdone, fun hh => ?_⟩, h.registered,
    h.trailersArrived, h.clientClosed⟩
  rw [h.registered, show x.headArrived = false from hh] at hreg
  cases hreg

/-- The trailers arrive behind all bytes. -/
theorem Arriving.trailer (h : Arriving q s k trailers x) (hall : x.emitted = frameOf q)
    (hreg : x.registered = true) (hwire : x.wire = []) (heof : x.eof = true)
    (hnew : x.trailersArrived = false) :
    Arriving q s k trailers
      (({ x with trailersArrived := true } : UnaryExchange).post (.trailers trailers)) := by
  obtain ⟨p, e, hat, hrun, hemitted, hdone, _⟩ := h.progress
  have hparsed : e.parsed = frameOf q := by rw [← hall, hemitted, hwire, List.append_nil]
  have hstep : e.step (frameOf q) trailers (.trailers trailers) = some { e with done := true } := by
    simp [Progress.step, hdone, hnew, hparsed]
  refine ⟨⟨p, _, hat, run_post hrun hstep, hemitted, rfl, fun hh => ?_⟩, h.registered,
    fun _ => ⟨heof, hwire⟩, fun _ => rfl⟩
  rw [h.registered, show x.headArrived = false from hh] at hreg
  cases hreg

/-- The client's stream closes behind the trailers. -/
theorem Arriving.close (h : Arriving q s k trailers x) (ht : x.trailersArrived = true)
    (errorCode : Nat) :
    Arriving q s k trailers
      (({ x with clientClosed := true } : UnaryExchange).post (.close errorCode)) := by
  obtain ⟨p, e, hat, hrun, hemitted, hdone, hnew⟩ := h.progress
  have hstep : e.step (frameOf q) trailers (.close errorCode) = some e := by
    simp [Progress.step, hdone, ht]
  refine ⟨⟨p, e, hat, run_post hrun hstep, hemitted, hdone, fun hh => ?_⟩, h.registered,
    h.trailersArrived, fun _ => ht⟩
  -- before the head the strand is empty, and no trailers have arrived
  obtain ⟨rfl, hstrand⟩ := hnew hh
  rw [hstrand] at hrun
  cases hrun
  rw [ht] at hdone
  cases hdone

/-- The head arrives. -/
theorem Arriving.response {ctx : ServerContext} (h : Arriving q s k trailers x)
    (hnew : x.headArrived = false) {y : Zlib} {c : UnaryCompletion}
    (hstep : (UnaryCompletion.machine z).step x.client (.attach ⟨200, streamHead y ctx⟩) =
      some c) :
    Arriving q s k trailers { x with
      client := c
      headArrived := true
      registered := (x.client.call.attach z ⟨200, streamHead y ctx⟩).2.2 } := by
  obtain ⟨p, e, hat, hrun, hemitted, hdone, hold⟩ := h.progress
  obtain ⟨rfl, _⟩ := hold hnew
  obtain ⟨hat', hreg⟩ := hat.attach ctx rfl hstep
  exact ⟨⟨_, e, hat', hrun, hemitted, hdone, fun hh => by cases hh⟩, hreg, h.trailersArrived,
    h.clientClosed⟩

/-- A closure on the strand runs. -/
theorem Arriving.runStrand (h : Arriving q s k trailers x)
    (hf : (serverFormat k).WellFormed (messageFrame 0 q)) (ht : extractTrailerStatus trailers = s)
    (hs : s.isOk = true) {e : UnaryEvent} {rest : List UnaryEvent} (hstrand : x.strand = e :: rest)
    {c : UnaryCompletion} (hstep : (UnaryCompletion.machine z).step x.client e = some c) :
    Arriving q s k trailers { x with strand := rest, client := c } := by
  obtain ⟨p, e', hat, hrun, hemitted, hdone, hold⟩ := h.progress
  rw [hstrand] at hrun
  obtain ⟨p', hp, hrun'⟩ := Machine.run_cons_some.1 hrun
  refine ⟨⟨p', e', hat.step hf ht hs hp hstep, hrun', hemitted, hdone, fun hh => ?_⟩, h.registered,
    h.trailersArrived, h.clientClosed⟩
  rw [hstrand] at hold
  cases (hold hh).2

/-- A posted callback runs. -/
theorem Arriving.runIoc (h : Arriving q s k trailers x) {i : Nat} {c : UnaryCompletion}
    (hstep : (UnaryCompletion.machine z).step x.client (.runIoc i) = some c) :
    Arriving q s k trailers { x with client := c } := by
  obtain ⟨p, e, hat, hrun, hemitted, hdone, hold⟩ := h.progress
  exact ⟨⟨p, e, hat.runIoc hstep, hrun, hemitted, hdone, hold⟩, h.registered, h.trailersArrived,
    h.clientClosed⟩

/-- What is written of a response that is being sent. -/
theorem Responding.written (h : Responding r q head trailers x) :
    writtenHeads x.server.trace = [⟨200, head⟩] ∧
      tracedTrailers x.server.trace = if x.eof then [trailers] else [] := by
  rw [h.trace]
  cases x.eof <;> cases x.server.call.closed <;> exact ⟨rfl, rfl⟩

/-! ## The run -/

/-- What a step does while nothing of the response has been sent. -/
theorem exchangeInvariant_unsent {e : ExchangeEvent}
    (hr : (serverFormat m).WellFormed (messageFrame 0 r)) (hs : s.isOk = true)
    (hq : q.length ≤ maxResponseSize) (hlen : q.length < 2 ^ 32) (hstatus : x.status = s)
    (hresponse : x.response = q) (hu : Unsent q s k x)
    (hphase : Receiving m maxResponseSize r x ∨ Running maxResponseSize r x)
    (hstep : x.step z e = some x') : ExchangeInvariant m maxResponseSize r q s z k x' := by
  have hbody : x.server.body = none := hphase.elim (·.body) (·.body)
  have htrace : x.server.trace = [] := hphase.elim (·.trace) (·.trace)
  cases e with
  -- the request arrives in pieces; its end runs the handler
  | request n =>
      simp only [UnaryExchange.step, Option.ite_none_right_eq_some, Bool.and_eq_true,
        decide_eq_true_eq] at hstep
      obtain ⟨⟨hn, hle⟩, hstep⟩ := hstep
      rcases hphase with h | h
      · obtain ⟨h', server, rfl⟩ := h.request hr hn hle hstep
        exact ⟨hstatus, hresponse, Or.inl ⟨{ hu with }, Or.inl h'⟩⟩
      · rw [h.upstream, List.length_nil] at hle
        omega
  | requestEnd =>
      simp only [UnaryExchange.step, Option.ite_none_right_eq_some, Bool.and_eq_true,
        List.isEmpty_iff, Bool.not_eq_true'] at hstep
      obtain ⟨⟨hnil, hopen⟩, hstep⟩ := hstep
      rcases hphase with h | h
      · obtain ⟨h', server, invocations, rfl⟩ := h.requestEnd hr hnil hstep
        exact ⟨hstatus, hresponse, Or.inl ⟨{ hu with }, Or.inr h'⟩⟩
      · rw [h.ended] at hopen
        cases hopen
  | addMetadata trailing key value =>
      obtain ⟨server, hserver, rfl⟩ := Option.map_eq_some_iff.1 hstep
      rcases hphase with h | h
      · simp [ServerCall.step, h.handlers] at hserver
      · exact ⟨hstatus, hresponse, Or.inl ⟨{ hu with }, Or.inr (h.addMetadata hserver)⟩⟩
  | handlerReturn =>
      obtain ⟨server, hserver, rfl⟩ := Option.map_eq_some_iff.1 hstep
      rcases hphase with h | h
      · simp [ServerCall.step, h.handlers] at hserver
      · rw [hstatus, hresponse] at hserver
        have hresp := h.handlerReturn hu hs hq hlen hserver
        refine ⟨hstatus, hresponse,
          Or.inr ⟨_, _, extractTrailerStatus_buildTrailers s _ rfl rfl rfl,
          hresp, ⟨⟨_, ⟨[], false⟩, hu.client, ?_, ?_, ?_, fun _ => ⟨rfl, hu.strand⟩⟩, ?_, ?_, ?_⟩⟩⟩
        · show (Progress.machine _ _).run _ x.strand = _
          rw [hu.strand]
          rfl
        · show x.emitted = [] ++ x.wire
          rw [hu.emitted, hu.wire]
          rfl
        · exact hu.trailersArrived.symm
        · exact hu.registered.trans hu.headArrived.symm
        · intro ht
          rw [show _ = x.trailersArrived from rfl, hu.trailersArrived] at ht
          cases ht
        · intro hc
          rw [show _ = x.clientClosed from rfl, hu.clientClosed] at hc
          cases hc
  -- nothing has been written, so the client has nothing to receive
  | poll len => simp [UnaryExchange.step, hbody] at hstep
  | serverClose => simp [UnaryExchange.step, hu.eof] at hstep
  | head => simp [UnaryExchange.step, htrace, writtenHeads] at hstep
  | deliver n => simp [UnaryExchange.step, hu.registered] at hstep
  | dataEnd => simp [UnaryExchange.step, hu.registered] at hstep
  | trailer => simp [UnaryExchange.step, hu.registered] at hstep
  | clientClose errorCode => simp [UnaryExchange.step, hu.trailersArrived] at hstep
  | runStrand => simp [UnaryExchange.step, hu.strand] at hstep
  | runIoc i =>
      obtain ⟨c, hc, rfl⟩ := Option.map_eq_some_iff.1 hstep
      have hclient : At k s q c ⟨[], false⟩ := hu.client.runIoc hc
      refine ⟨hstatus, hresponse, Or.inl ⟨{ hu with client := hclient }, ?_⟩⟩
      rcases hphase with h | h
      · exact Or.inl { h with }
      · exact Or.inr { h with }

/-- What a step does while the response is being sent. -/
theorem exchangeInvariant_sending {e : ExchangeEvent}
    (hf : (serverFormat k).WellFormed (messageFrame 0 q)) (hs : s.isOk = true)
    (hstatus : x.status = s) (hresponse : x.response = q) {ctx : ServerContext}
    (ht : extractTrailerStatus trailers = s) (h : Responding r q (streamHead z ctx) trailers x)
    (ha : Arriving q s k trailers x) (hstep : x.step z e = some x') :
    ExchangeInvariant m maxResponseSize r q s z k x' := by
  obtain ⟨hheads, htraced⟩ := h.written
  obtain ⟨hpre, hall⟩ := h.emitted
  cases e with
  -- the handler is done, and the whole request has been read
  | request n =>
      simp only [UnaryExchange.step, Option.ite_none_right_eq_some, Bool.and_eq_true,
        decide_eq_true_eq, h.upstream, List.length_nil] at hstep
      omega
  | requestEnd => simp [UnaryExchange.step, h.ended] at hstep
  | addMetadata trailing key value =>
      obtain ⟨server, hserver, rfl⟩ := Option.map_eq_some_iff.1 hstep
      simp [ServerCall.step, h.handlers] at hserver
  | handlerReturn =>
      obtain ⟨server, hserver, rfl⟩ := Option.map_eq_some_iff.1 hstep
      simp [ServerCall.step, h.handlers] at hserver
  -- the server emits the frame and closes
  | poll len =>
      have hguard := hstep
      simp only [UnaryExchange.step, Option.ite_none_right_eq_some, Bool.and_eq_true,
        decide_eq_true_eq, Bool.not_eq_true'] at hguard
      obtain ⟨h', server, bytes, _, rfl⟩ := h.poll hguard.1.1 hguard.1.2 hstep
      exact ⟨hstatus, hresponse, Or.inr ⟨ctx, trailers, ht, h', ha.grow hguard.1.2⟩⟩
  | serverClose =>
      simp only [UnaryExchange.step, Option.ite_none_right_eq_some, Bool.and_eq_true,
        Bool.not_eq_true'] at hstep
      obtain ⟨⟨heof, hopen⟩, hstep⟩ := hstep
      obtain ⟨server, hserver, rfl⟩ := Option.map_eq_some_iff.1 hstep
      exact ⟨hstatus, hresponse,
        Or.inr ⟨ctx, trailers, ht, h.close heof hopen hserver, { ha with }⟩⟩
  -- the client receives it
  | head =>
      simp only [UnaryExchange.step, Option.ite_none_left_eq_some, hheads, List.head?_cons,
        Option.bind_some] at hstep
      obtain ⟨hnew, hstep⟩ := hstep
      obtain ⟨c, hc, rfl⟩ := Option.map_eq_some_iff.1 hstep
      exact ⟨hstatus, hresponse, Or.inr ⟨ctx, trailers, ht, { h with },
        ha.response (by simpa using hnew) hc⟩⟩
  | deliver n =>
      simp only [UnaryExchange.step, Option.ite_none_right_eq_some, Bool.and_eq_true,
        decide_eq_true_eq, Option.some.injEq] at hstep
      obtain ⟨⟨⟨hreg, hn⟩, hle⟩, rfl⟩ := hstep
      exact ⟨hstatus, hresponse, Or.inr ⟨ctx, trailers, ht, { h with },
        ha.deliver hpre hreg hn hle⟩⟩
  | dataEnd =>
      simp only [UnaryExchange.step, Option.ite_none_right_eq_some, Bool.and_eq_true,
        List.isEmpty_iff, Option.some.injEq] at hstep
      obtain ⟨⟨⟨⟨hreg, heof⟩, hwire⟩, _⟩, rfl⟩ := hstep
      exact ⟨hstatus, hresponse, Or.inr ⟨ctx, trailers, ht, { h with },
        ha.dataEnd (hall heof) hreg hwire⟩⟩
  | trailer =>
      simp only [UnaryExchange.step, Option.ite_none_right_eq_some, Bool.and_eq_true,
        List.isEmpty_iff, Bool.not_eq_true'] at hstep
      obtain ⟨⟨⟨⟨hreg, heof⟩, hwire⟩, hnew⟩, hstep⟩ := hstep
      rw [htraced, if_pos heof, List.head?_cons, Option.map_some, Option.some.injEq] at hstep
      subst hstep
      exact ⟨hstatus, hresponse, Or.inr ⟨ctx, trailers, ht, { h with },
        ha.trailer (hall heof) hreg hwire heof hnew⟩⟩
  | clientClose errorCode =>
      simp only [UnaryExchange.step, Option.ite_none_right_eq_some, Bool.and_eq_true,
        Option.some.injEq] at hstep
      obtain ⟨⟨harr, _⟩, rfl⟩ := hstep
      exact ⟨hstatus, hresponse, Or.inr ⟨ctx, trailers, ht, { h with }, ha.close harr errorCode⟩⟩
  | runStrand =>
      simp only [UnaryExchange.step] at hstep
      split at hstep
      · cases hstep
      · rename_i task rest hstrand
        obtain ⟨c, hc, rfl⟩ := Option.map_eq_some_iff.1 hstep
        exact ⟨hstatus, hresponse, Or.inr ⟨ctx, trailers, ht, { h with },
          ha.runStrand hf ht hs hstrand hc⟩⟩
  | runIoc i =>
      obtain ⟨c, hc, rfl⟩ := Option.map_eq_some_iff.1 hstep
      exact ⟨hstatus, hresponse, Or.inr ⟨ctx, trailers, ht, { h with }, ha.runIoc hc⟩⟩

/-- **Every event keeps the invariant.** -/
theorem exchangeInvariant_step {e : ExchangeEvent}
    (hr : (serverFormat m).WellFormed (messageFrame 0 r))
    (hf : (serverFormat k).WellFormed (messageFrame 0 q)) (hs : s.isOk = true)
    (hq : q.length ≤ maxResponseSize) (hlen : q.length < 2 ^ 32)
    (h : ExchangeInvariant m maxResponseSize r q s z k x) (hstep : x.step z e = some x') :
    ExchangeInvariant m maxResponseSize r q s z k x' := by
  obtain ⟨hstatus, hresponse, ⟨hu, hphase⟩ | ⟨ctx, trailers, ht, hresp, ha⟩⟩ := h
  · exact exchangeInvariant_unsent hr hs hq hlen hstatus hresponse hu hphase hstep
  · exact exchangeInvariant_sending hf hs hstatus hresponse ht hresp ha hstep

/-- The events that carry the call on; the handler may add metadata as often as it likes. -/
def isCallEvent : ExchangeEvent → Bool
  | .addMetadata _ _ _ => false
  | _ => true

/-- What is left to do: each byte is emitted, delivered and handled, and the rest happens once. -/
def UnaryExchange.remaining (x : UnaryExchange) : Nat :=
  x.upstream.length + (!x.requestEnded).toNat + (!x.server.call.responded).toNat +
    4 * ((frameOf x.response).length - x.emitted.length) + 3 * x.wire.length + (!x.eof).toNat +
    (!x.server.call.closed).toNat + (!x.headArrived).toNat + 3 * (!x.dataEnded).toNat +
    3 * (!x.trailersArrived).toNat + 3 * (!x.clientClosed).toNat + 2 * x.strand.length +
    x.client.ioc.length

/-- A client posts at most one callback at a time. -/
theorem At.ioc_length {c c' : UnaryCompletion} {p p' : Progress} {e : UnaryEvent}
    (hf : (serverFormat k).WellFormed (messageFrame 0 q)) (ht : extractTrailerStatus trailers = s)
    (hs : s.isOk = true) (h : At k s q c p) (hp : p.step (frameOf q) trailers e = some p')
    (hc : (UnaryCompletion.machine z).step c e = some c') :
    c'.ioc.length ≤ c.ioc.length + 1 := by
  have hnext := h.step hf ht hs hp hc
  cases hdone : p'.done with
  | true =>
      rw [At, if_pos hdone] at hnext
      obtain ⟨_, res, hone, _⟩ := hnext
      have hlen := congrArg List.length hone
      rw [List.length_append, List.length_singleton] at hlen
      omega
  | false =>
      rw [At, if_neg (by simp [hdone])] at hnext
      simp [hnext.2.1]

/-- The request and the handler come nearer to the response. -/
theorem remaining_unsent {e : ExchangeEvent}
    (hr : (serverFormat m).WellFormed (messageFrame 0 r)) (hs : s.isOk = true)
    (hq : q.length ≤ maxResponseSize) (hlen : q.length < 2 ^ 32) (hstatus : x.status = s)
    (hresponse : x.response = q) (hu : Unsent q s k x)
    (hphase : Receiving m maxResponseSize r x ∨ Running maxResponseSize r x)
    (he : isCallEvent e = true) (hstep : x.step z e = some x') : x'.remaining < x.remaining := by
  have hbody : x.server.body = none := hphase.elim (·.body) (·.body)
  have htrace : x.server.trace = [] := hphase.elim (·.trace) (·.trace)
  cases e with
  | request n =>
      simp only [UnaryExchange.step, Option.ite_none_right_eq_some, Bool.and_eq_true,
        decide_eq_true_eq] at hstep
      obtain ⟨⟨hn, hle⟩, hstep⟩ := hstep
      rcases hphase with h | h
      -- the bytes taken leave the upstream, and the server's flags stay
      · obtain ⟨h', server, rfl⟩ := h.request hr hn hle hstep
        have hresp : server.call.responded = x.server.call.responded :=
          h'.responded.trans h.responded.symm
        have hclosed : server.call.closed = x.server.call.closed := h'.closed.trans h.closed.symm
        simp only [UnaryExchange.remaining, hresp, hclosed, List.length_drop]
        omega
      · rw [h.upstream, List.length_nil] at hle
        omega
  | requestEnd =>
      simp only [UnaryExchange.step, Option.ite_none_right_eq_some, Bool.and_eq_true,
        List.isEmpty_iff, Bool.not_eq_true'] at hstep
      obtain ⟨⟨hnil, hopen⟩, hstep⟩ := hstep
      rcases hphase with h | h
      · obtain ⟨h', server, invocations, rfl⟩ := h.requestEnd hr hnil hstep
        have hresp : server.call.responded = x.server.call.responded :=
          h'.responded.trans h.responded.symm
        have hclosed : server.call.closed = x.server.call.closed := h'.closed.trans h.closed.symm
        simp only [UnaryExchange.remaining, hresp, hclosed, hopen, Bool.not_true, Bool.not_false,
          Bool.toNat_true, Bool.toNat_false]
        omega
      · rw [h.ended] at hopen
        cases hopen
  | addMetadata trailing key value => cases he
  | handlerReturn =>
      obtain ⟨server, hserver, rfl⟩ := Option.map_eq_some_iff.1 hstep
      rcases hphase with h | h
      · simp [ServerCall.step, h.handlers] at hserver
      · rw [hstatus, hresponse] at hserver
        have hresp := h.handlerReturn hu hs hq hlen hserver
        have hdone : server.call.responded = true := hresp.responded
        have hclosed : server.call.closed = false := by
          cases hc : server.call.closed with
          | false => rfl
          | true =>
              have heof : x.eof = true := hresp.closed hc
              rw [hu.eof] at heof
              cases heof
        simp only [UnaryExchange.remaining, hdone, hclosed, h.responded, h.closed, Bool.not_true,
          Bool.not_false, Bool.toNat_true, Bool.toNat_false]
        omega
  -- the server has written nothing yet
  | poll len => simp [UnaryExchange.step, hbody] at hstep
  | serverClose => simp [UnaryExchange.step, hu.eof] at hstep
  | head => simp [UnaryExchange.step, htrace, writtenHeads] at hstep
  | deliver n => simp [UnaryExchange.step, hu.registered] at hstep
  | dataEnd => simp [UnaryExchange.step, hu.registered] at hstep
  | trailer => simp [UnaryExchange.step, hu.registered] at hstep
  | clientClose errorCode => simp [UnaryExchange.step, hu.trailersArrived] at hstep
  | runStrand => simp [UnaryExchange.step, hu.strand] at hstep
  | runIoc i =>
      obtain ⟨c, hc, rfl⟩ := Option.map_eq_some_iff.1 hstep
      obtain ⟨res, hres, rfl⟩ := Option.map_eq_some_iff.1 hc
      have hioc := hu.client.2.1
      rw [hioc] at hres
      cases hres

/-- The response comes nearer to its end. -/
theorem remaining_sending {e : ExchangeEvent}
    (hf : (serverFormat k).WellFormed (messageFrame 0 q)) (hs : s.isOk = true)
    (hresponse : x.response = q) {ctx : ServerContext} (ht : extractTrailerStatus trailers = s)
    (h : Responding r q (streamHead z ctx) trailers x) (ha : Arriving q s k trailers x)
    (he : isCallEvent e = true) (hstep : x.step z e = some x') : x'.remaining < x.remaining := by
  obtain ⟨hheads, htraced⟩ := h.written
  cases e with
  | request n =>
      simp only [UnaryExchange.step, Option.ite_none_right_eq_some, Bool.and_eq_true,
        decide_eq_true_eq, h.upstream, List.length_nil] at hstep
      omega
  | requestEnd => simp [UnaryExchange.step, h.ended] at hstep
  | addMetadata trailing key value => cases he
  | handlerReturn =>
      obtain ⟨server, hserver, rfl⟩ := Option.map_eq_some_iff.1 hstep
      simp [ServerCall.step, h.handlers] at hserver
  | poll len =>
      have hguard := hstep
      simp only [UnaryExchange.step, Option.ite_none_right_eq_some, Bool.and_eq_true,
        decide_eq_true_eq, Bool.not_eq_true'] at hguard
      obtain ⟨h', server, bytes, hcall, rfl⟩ := h.poll hguard.1.1 hguard.1.2 hstep
      have hpre := h'.emitted.1.length_le
      simp only [List.length_append] at hpre
      cases hb : bytes with
      | nil =>
          -- the end of the body
          simp only [UnaryExchange.remaining, hcall, hguard.1.2, List.append_nil, List.isEmpty_nil,
            Bool.not_true, Bool.not_false, Bool.toNat_true, Bool.toNat_false]
          omega
      | cons b rest =>
          simp only [hb, List.length_cons] at hpre
          simp only [UnaryExchange.remaining, hcall, hguard.1.2, hresponse, List.length_append,
            List.length_cons, List.isEmpty_cons, Bool.not_false, Bool.toNat_true]
          omega
  | serverClose =>
      simp only [UnaryExchange.step, Option.ite_none_right_eq_some, Bool.and_eq_true,
        Bool.not_eq_true'] at hstep
      obtain ⟨⟨heof, hopen⟩, hstep⟩ := hstep
      obtain ⟨server, hserver, rfl⟩ := Option.map_eq_some_iff.1 hstep
      have h' := h.close heof hopen hserver
      have hresp : server.call.responded = x.server.call.responded :=
        h'.responded.trans h.responded.symm
      have hclosed : server.call.closed = true := by
        simp only [ServerCall.step, h.started, if_true, Option.some.injEq] at hserver
        rw [← hserver]
        simp [ServerCallState.onClose, hopen, h.responded]
      simp only [UnaryExchange.remaining, hresp, hclosed, hopen, Bool.not_true, Bool.not_false,
        Bool.toNat_true, Bool.toNat_false]
      omega
  | head =>
      simp only [UnaryExchange.step, Option.ite_none_left_eq_some, hheads, List.head?_cons,
        Option.bind_some] at hstep
      obtain ⟨hnew, hstep⟩ := hstep
      obtain ⟨c, hc, rfl⟩ := Option.map_eq_some_iff.1 hstep
      have hnew' : x.headArrived = false := by simpa using hnew
      obtain ⟨p, e, hat, _, _, _, hold⟩ := ha.progress
      obtain ⟨rfl, _⟩ := hold hnew'
      have hioc : c.ioc.length = x.client.ioc.length := by
        rw [(hat.attach ctx rfl hc).1.2.1, hat.2.1]
      simp only [UnaryExchange.remaining, hioc, hnew', Bool.not_true, Bool.not_false,
        Bool.toNat_true, Bool.toNat_false]
      omega
  | deliver n =>
      simp only [UnaryExchange.step, Option.ite_none_right_eq_some, Bool.and_eq_true,
        decide_eq_true_eq, Option.some.injEq] at hstep
      obtain ⟨⟨⟨hreg, hn⟩, hle⟩, rfl⟩ := hstep
      simp only [UnaryExchange.remaining, UnaryExchange.post, List.length_drop, List.length_append,
        List.length_singleton]
      omega
  | dataEnd =>
      simp only [UnaryExchange.step, Option.ite_none_right_eq_some, Bool.and_eq_true,
        Bool.not_eq_true', Option.some.injEq] at hstep
      obtain ⟨⟨_, hnew⟩, rfl⟩ := hstep
      simp only [UnaryExchange.remaining, UnaryExchange.post, hnew, List.length_append,
        List.length_singleton, Bool.not_true, Bool.not_false, Bool.toNat_true, Bool.toNat_false]
      omega
  | trailer =>
      simp only [UnaryExchange.step, Option.ite_none_right_eq_some, Bool.and_eq_true,
        Bool.not_eq_true'] at hstep
      obtain ⟨⟨_, hnew⟩, hstep⟩ := hstep
      obtain ⟨t, _, rfl⟩ := Option.map_eq_some_iff.1 hstep
      simp only [UnaryExchange.remaining, UnaryExchange.post, hnew, List.length_append,
        List.length_singleton, Bool.not_true, Bool.not_false, Bool.toNat_true, Bool.toNat_false]
      omega
  | clientClose errorCode =>
      simp only [UnaryExchange.step, Option.ite_none_right_eq_some, Bool.and_eq_true,
        Bool.not_eq_true', Option.some.injEq] at hstep
      obtain ⟨⟨_, hnew⟩, rfl⟩ := hstep
      simp only [UnaryExchange.remaining, UnaryExchange.post, hnew, List.length_append,
        List.length_singleton, Bool.not_true, Bool.not_false, Bool.toNat_true, Bool.toNat_false]
      omega
  | runStrand =>
      simp only [UnaryExchange.step] at hstep
      split at hstep
      · cases hstep
      · rename_i task rest hstrand
        obtain ⟨c, hc, rfl⟩ := Option.map_eq_some_iff.1 hstep
        obtain ⟨p, e, hat, hrun, _, _, _⟩ := ha.progress
        rw [hstrand] at hrun
        obtain ⟨p', hp, _⟩ := Machine.run_cons_some.1 hrun
        have hioc := hat.ioc_length hf ht hs hp hc
        simp only [UnaryExchange.remaining, hstrand, List.length_cons]
        omega
  | runIoc i =>
      obtain ⟨c, hc, rfl⟩ := Option.map_eq_some_iff.1 hstep
      obtain ⟨res, hres, rfl⟩ := Option.map_eq_some_iff.1 hc
      have hi := (List.getElem?_eq_some_iff.1 hres).1
      simp only [UnaryExchange.remaining, List.length_eraseIdx, hi, if_true]
      omega

/-- **Every event of the call leaves less to do.** -/
theorem remaining_decreases {e : ExchangeEvent}
    (hr : (serverFormat m).WellFormed (messageFrame 0 r))
    (hf : (serverFormat k).WellFormed (messageFrame 0 q)) (hs : s.isOk = true)
    (hq : q.length ≤ maxResponseSize) (hlen : q.length < 2 ^ 32)
    (h : ExchangeInvariant m maxResponseSize r q s z k x) (he : isCallEvent e = true)
    (hstep : x.step z e = some x') : x'.remaining < x.remaining := by
  obtain ⟨hstatus, hresponse, ⟨hu, hphase⟩ | ⟨ctx, trailers, ht, hresp, ha⟩⟩ := h
  · exact remaining_unsent hr hs hq hlen hstatus hresponse hu hphase he hstep
  · exact remaining_sending hf hs hresponse ht hresp ha he hstep

/-- No event of the call is left. -/
def UnaryExchange.Quiescent (z : Zlib) (x : UnaryExchange) : Prop :=
  ∀ e, isCallEvent e = true → x.step z e = none

/-- A call on which nothing is left has been answered. -/
theorem quiescent_sending (h : ExchangeInvariant m maxResponseSize r q s z k x)
    (hq : x.Quiescent z) : ∃ ctx trailers, Responding r q (streamHead z ctx) trailers x ∧
      Arriving q s k trailers x := by
  obtain ⟨_, _, ⟨hu, hphase⟩ | ⟨ctx, trailers, _, hresp, ha⟩⟩ := h
  · exfalso
    rcases hphase with h | h
    · by_cases hnil : x.upstream = []
      · have hnone := hq .requestEnd rfl
        simp [UnaryExchange.step, hnil, h.ended, UnaryExchange.serverData, ServerCall.step,
          h.registered] at hnone
      · have hpos := List.length_pos_iff.2 hnil
        have hnone := hq (.request 1) rfl
        simp [UnaryExchange.step, Nat.succ_le_iff.2 hpos, UnaryExchange.serverData, ServerCall.step,
          h.registered] at hnone
    · have hnone := hq .handlerReturn rfl
      simp [UnaryExchange.step, ServerCall.step, h.handlers] at hnone
  · exact ⟨ctx, trailers, hresp, ha⟩

/-- **A call on which nothing is left is complete.** -/
theorem quiescent_complete (h : ExchangeInvariant m maxResponseSize r q s z k x)
    (hq : x.Quiescent z) :
    x.invocations = [r] ∧ x.eof = true ∧ x.client.ioc = [] ∧
      ∃ res, x.client.invoked = [res] ∧ IsReply s q res := by
  obtain ⟨ctx, trailers, hresp, ha⟩ := quiescent_sending h hq
  obtain ⟨hheads, htraced⟩ := hresp.written
  -- the body is open as long as the end of it has not been polled
  have heof : x.eof = true := by
    cases hx : x.eof with
    | true => rfl
    | false =>
        exfalso
        obtain ⟨b, hb, _⟩ := hresp.body
        have hopen : x.server.call.closed = false := by
          cases hc : x.server.call.closed with
          | false => rfl
          | true =>
              have := hresp.closed hc
              rw [hx] at this
              cases this
        have hnone := hq (.poll 1) rfl
        simp [UnaryExchange.step, hx, hb, ServerCall.step, hopen] at hnone
  -- the session has nothing left to deliver
  have hhead : x.headArrived = true := by
    cases hx : x.headArrived with
    | true => rfl
    | false =>
        have hnone := hq .head rfl
        simp [UnaryExchange.step, hx, hheads, UnaryCompletion.machine, UnaryCompletion.step]
          at hnone
  have hreg : x.registered = true := ha.registered.trans hhead
  have hwire : x.wire = [] := by
    by_cases hne : x.wire = []
    · exact hne
    · have hpos := List.length_pos_iff.2 hne
      have hnone := hq (.deliver 1) rfl
      simp [UnaryExchange.step, hreg, Nat.succ_le_iff.2 hpos] at hnone
  have harr : x.trailersArrived = true := by
    cases hx : x.trailersArrived with
    | true => rfl
    | false =>
        have hnone := hq .trailer rfl
        simp [UnaryExchange.step, hreg, heof, hwire, hx, htraced] at hnone
  -- the client has run every closure that the session posted
  obtain ⟨p, e, hat, hrun, _, hdone, _⟩ := ha.progress
  have hstrand : x.strand = [] := by
    cases hs : x.strand with
    | nil => rfl
    | cons task rest =>
        exfalso
        rw [hs] at hrun
        obtain ⟨p', hp, _⟩ := Machine.run_cons_some.1 hrun
        have hnone := hq .runStrand rfl
        cases task with
        | data chunk =>
            simp [UnaryExchange.step, hs, UnaryCompletion.machine, UnaryCompletion.step] at hnone
        | trailers hd =>
            simp [UnaryExchange.step, hs, UnaryCompletion.machine, UnaryCompletion.step] at hnone
        | close errorCode =>
            simp [UnaryExchange.step, hs, UnaryCompletion.machine, UnaryCompletion.step] at hnone
        | _ => cases hp
  have hioc : x.client.ioc = [] := by
    cases hx : x.client.ioc with
    | nil => rfl
    | cons a rest =>
        have hnone := hq (.runIoc 0) rfl
        simp [UnaryExchange.step, UnaryCompletion.machine, UnaryCompletion.step, hx] at hnone
  -- what is left of the progress is the end of the exchange
  rw [hstrand] at hrun
  cases hrun
  rw [At, if_pos (hdone.trans harr)] at hat
  obtain ⟨_, res, hone, hreply⟩ := hat
  rw [hioc] at hone
  exact ⟨hresp.invocations, heof, hioc, res, hone, hreply⟩

end

/-! ## The round trip -/

/-- `Start` that registers `on_data` sends nothing, and changes the encoding, the context and the
timer. -/
theorem start_registered {z : Zlib} {m maxMetadataSize maxResponseSize : Nat}
    {peerIdentity : Bytes} {req : Request}
    (h : ((ServerCallState.new m maxMetadataSize maxResponseSize peerIdentity).start z req).2.2 =
      true) :
    ∃ c, (ServerCallState.new m maxMetadataSize maxResponseSize peerIdentity).start z req =
        (c, none, true) ∧ c.responded = false ∧ c.closed = false ∧
      c.maxResponseSize = maxResponseSize ∧ c.decoder = FrameDecoder.new m ∧
        c.requestEncoding = negotiated z req.header := by
  have hstart : ((RequestServer.unary
      (.new m maxMetadataSize maxResponseSize peerIdentity)).start z req).2 = true := h
  obtain ⟨c, hc, hresp, hdec, _, henc⟩ := RequestServer.start_unary hstart
  have hcall : ((ServerCallState.new m maxMetadataSize maxResponseSize peerIdentity).start z
      req).1 = c := RequestServer.unary.inj hc
  have hrest : ((ServerCallState.new m maxMetadataSize maxResponseSize peerIdentity).start z
      req).2.1 = none ∧ c.closed = false ∧ c.maxResponseSize = maxResponseSize := by
    rw [← hcall]
    unfold ServerCallState.start at h ⊢
    dsimp only at h ⊢
    split at h
    · cases h
    · rename_i hok
      rw [if_neg hok]
      split at h
      · cases h
      · exact ⟨rfl, rfl, rfl⟩
  exact ⟨c, Prod.ext hcall (Prod.ext hrest.1 h), hresp, hrest.2.1, hrest.2.2, hdec, henc⟩

/-- What the two ends of a unary call may rely on: the handler is invoked with the request, at most
once; the body is the frame of the response, and the trailers are written once, with its end; a
client completes at most once, with the response; and the call comes to a rest at which the handler
was invoked, the trailers are written and the client has completed. -/
structure RoundTripped (z : Zlib) (r q : Bytes) (s : Status) (x : UnaryExchange) : Prop where
  invoked : x.invocations <+: [r]
  emitted : x.emitted <+: frameOf q
  complete : x.eof = true → x.emitted = frameOf q
  trailers : ∃ t, extractTrailerStatus t = s ∧
    tracedTrailers x.server.trace = if x.eof then [t] else []
  once : (x.client.ioc ++ x.client.invoked).length ≤ 1
  result : ∀ res ∈ x.client.ioc ++ x.client.invoked, IsReply s q res
  bounded : ∃ n, ∀ es x', (∀ e ∈ es, isCallEvent e = true) →
    (UnaryExchange.machine z).run x es = some x' → es.length ≤ n
  rests : ∃ es x', (∀ e ∈ es, isCallEvent e = true) ∧
    (UnaryExchange.machine z).run x es = some x' ∧ x'.Quiescent z
  answered : x.Quiescent z → x.invocations = [r] ∧ x.eof = true ∧ x.client.ioc = [] ∧
    ∃ res, x.client.invoked = [res] ∧ IsReply s q res

/-- The client's callbacks. -/
theorem At.results {k : Nat} {s : Status} {q : Bytes} {c : UnaryCompletion} {p : Progress}
    (h : At k s q c p) :
    (c.ioc ++ c.invoked).length ≤ 1 ∧ ∀ res ∈ c.ioc ++ c.invoked, IsReply s q res := by
  cases hdone : p.done with
  | true =>
      rw [At, if_pos hdone] at h
      obtain ⟨_, r, hone, hreply⟩ := h
      rw [hone]
      refine ⟨Nat.le_refl 1, fun res hres => ?_⟩
      rw [List.mem_singleton.1 hres]
      exact hreply
  | false =>
      rw [At, if_neg (by simp [hdone])] at h
      simp [h.2.1, h.2.2.1]

/-- **The round trip of a unary call.** A request and a response within the limits, without an
encoding: in every state that the call can reach, whatever the chunks of the request and of the
response and the buffers of the generator, and whatever metadata the handler adds. -/
theorem unary_round_trip {z : Zlib} {m maxMetadataSize maxResponseSize : Nat}
    {peerIdentity : Bytes} {req : Request} {ctx : Option ClientContext} {r q : Bytes} {s : Status}
    (hstart : ((ServerCallState.new m maxMetadataSize maxResponseSize peerIdentity).start z
      req).2.2 = true)
    (henc : negotiated z req.header = none) (hr : r.length ≤ m ∧ r.length < 2 ^ 32)
    (hq : q.length ≤ maxResponseSize ∧ q.length ≤ maxReceiveMessageSize ctx ∧ q.length < 2 ^ 32)
    (hs : s.isOk = true) {x : UnaryExchange}
    (hx : (UnaryExchange.machine z).Reaches (.start z ctx
      (.new m maxMetadataSize maxResponseSize peerIdentity) req r s q) x) :
    RoundTripped z r q s x := by
  have hwf := messageFrame_serverFormat hr.1 hr.2
  have hf := messageFrame_serverFormat hq.2.1 hq.2.2
  have hstep : ∀ a e b,
      ExchangeInvariant m maxResponseSize r q s z (maxReceiveMessageSize ctx) a →
      (UnaryExchange.machine z).step a e = some b →
      ExchangeInvariant m maxResponseSize r q s z (maxReceiveMessageSize ctx) b :=
    fun _ _ _ ha hb => exchangeInvariant_step hwf hf hs hq.1 hq.2.2 ha hb
  have hdec : ∀ a e b,
      ExchangeInvariant m maxResponseSize r q s z (maxReceiveMessageSize ctx) a →
      isCallEvent e = true → (UnaryExchange.machine z).step a e = some b →
      b.remaining < a.remaining :=
    fun _ _ _ ha he hb => remaining_decreases hwf hf hs hq.1 hq.2.2 ha he hb
  -- the exchange starts with the request unsent and nothing on the wire
  have hinv : ExchangeInvariant m maxResponseSize r q s z (maxReceiveMessageSize ctx) x := by
    refine hx.invariant hstep ⟨rfl, rfl, Or.inl ⟨?_, Or.inl ?_⟩⟩
    · exact ⟨rfl, rfl, rfl, ⟨rfl, rfl, rfl, rfl, FrameDecoder.reads_new _⟩, rfl, rfl, rfl, rfl, rfl,
        rfl⟩
    · obtain ⟨c, hc, hresp, hclosed, hlimit, hdecoder, hencoding⟩ := start_registered hstart
      simp only [UnaryExchange.start, hc]
      exact ⟨rfl, rfl, rfl, hresp, hclosed, hencoding.trans henc, hlimit, rfl, rfl, rfl, rfl, [],
        by rw [encodeFrame_frameOf hr.2]; rfl, by
          show FrameDecoder.Reads m _ c.decoder
          rw [hdecoder]
          exact FrameDecoder.reads_new m⟩
  have hrest := Machine.exists_quiescent hstep hdec x hinv
  -- every event of the call uses up some of what remains, so that runs of them are bounded
  have hbound : ∃ n, ∀ es x', (∀ e ∈ es, isCallEvent e = true) →
      (UnaryExchange.machine z).run x es = some x' → es.length ≤ n :=
    ⟨x.remaining, fun es x' hes hrun => Machine.run_length_le hstep hdec es x x' hinv hes hrun⟩
  have hdone := quiescent_complete (x := x) hinv
  obtain ⟨_, _, ⟨hu, hphase⟩ | ⟨sctx, t, ht, hresp, ha⟩⟩ := hinv
  · have hinvoked : x.invocations <+: [r] := by
      rcases hphase with h | h
      · rw [h.invocations]
        exact List.nil_prefix
      · exact h.invocations ▸ List.prefix_rfl
    have htrace : x.server.trace = [] := hphase.elim (·.trace) (·.trace)
    refine ⟨hinvoked, by rw [hu.emitted]; exact List.nil_prefix, fun heof => ?_,
      ⟨buildTrailers s [] [], extractTrailerStatus_finish s, by rw [htrace, hu.eof]; rfl⟩,
      hu.client.results.1, hu.client.results.2, hbound, hrest, hdone⟩
    rw [hu.eof] at heof
    cases heof
  · obtain ⟨p, e, hat, _⟩ := ha.progress
    exact ⟨hresp.invocations ▸ List.prefix_rfl, hresp.emitted.1, hresp.emitted.2,
      ⟨t, ht, hresp.written.2⟩, hat.results.1, hat.results.2, hbound, hrest, hdone⟩

/-- A two-byte request in two chunks and the empty response, polled in pieces. -/
def exampleExchange : List ExchangeEvent :=
  [.request 3, .request 4, .requestEnd, .addMetadata true (text "k") [1], .handlerReturn, .poll 2,
    .head, .deliver 1, .poll 9, .runStrand, .deliver 4, .poll 1, .serverClose, .runStrand, .trailer,
    .dataEnd, .clientClose 0, .runStrand, .runStrand, .runStrand, .runIoc 0]

/-- The empty response is a message. -/
theorem unary_round_trip_example :
    ∃ x, (UnaryExchange.machine Zlib.none).run (.start Zlib.none none (.new 4 0 0 [])
        ⟨[], []⟩ [7, 8] Status.okStatus []) exampleExchange = some x ∧
      x.invocations = [[7, 8]] ∧ x.client.invoked.map (·.hasResponse) = [true] ∧
      RoundTripped Zlib.none [7, 8] [] Status.okStatus x := by
  have hrun : ((UnaryExchange.machine Zlib.none).run (.start Zlib.none none (.new 4 0 0 [])
      ⟨[], []⟩ [7, 8] Status.okStatus []) exampleExchange).map
        (fun x => (x.invocations, x.client.invoked.map (·.hasResponse))) =
          some ([[7, 8]], [true]) := by decide
  obtain ⟨x, hx, hres⟩ := Option.map_eq_some_iff.1 hrun
  obtain ⟨hinvoked, hhas⟩ := Prod.mk.inj hres
  exact ⟨x, hx, hinvoked, hhas, unary_round_trip (m := 4) (by decide) (by decide) (by decide)
    (by decide) (by decide) ⟨exampleExchange, hx⟩⟩

end Rpcpio.Stream
