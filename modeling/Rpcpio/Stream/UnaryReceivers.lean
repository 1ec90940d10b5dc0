import Rpcpio.Client.CallState
import Rpcpio.Protocol.UnaryFraming
import Rpcpio.Server.CallState
import Rpcpio.Server.ServerStreamingCallState

/-!
# What the receivers of a single message hand over

Three receivers decode one message with `FrameDecoder`: the server's `OnData` of a unary and of a
server-streaming call, and the data closures of the unary client call. `RequestServer.request_spec`
and `receiveMessage_spec` say what they make of any bytes in any chunks.
-/

set_option autoImplicit false

namespace Rpcpio.Stream

open Rpcpio.Library Rpcpio.Protocol Rpcpio.Client Rpcpio.Server

/-- A call state at the server with a single request message. -/
inductive RequestServer where
  | unary (c : ServerCallState)
  | serverStreaming (c : ServerStreamingCallState)
  deriving DecidableEq, Repr

namespace RequestServer

/-- `Start`, and whether it registers `on_data`. -/
def start (z : Zlib) (req : Request) : RequestServer → RequestServer × Bool
  | .unary c => (.unary (c.start z req).1, (c.start z req).2.2)
  | .serverStreaming c => (.serverStreaming (c.start z req).1, (c.start z req).2.2)

/-- `OnData`: the state, the calls on the response, and the requests of the handlers it spawns. -/
def onData (z : Zlib) (chunk : Bytes) :
    RequestServer → RequestServer × List ResponseCall × List Bytes
  | .unary c =>
      let r := c.onData z chunk
      (.unary r.1, (r.2.1.map Reply.calls).getD [], r.2.2.toList)
  | .serverStreaming c =>
      let r := c.onData z chunk
      (.serverStreaming r.1, r.2.1, r.2.2.toList)

/-- `OnData` for one chunk after the other. -/
def receive (z : Zlib) (s : RequestServer) :
    List Bytes → RequestServer × List ResponseCall × List Bytes
  | [] => (s, [], [])
  | chunk :: chunks =>
      let r := s.onData z chunk
      let t := r.1.receive z chunks
      (t.1, r.2.1 ++ t.2.1, r.2.2 ++ t.2.2)

/-- The chunks of the request data, and the end of the request. -/
def request (z : Zlib) (s : RequestServer) (chunks : List Bytes) :
    RequestServer × List ResponseCall × List Bytes :=
  s.receive z (chunks ++ [[]])

/-- `responded_`. -/
def responded : RequestServer → Bool
  | .unary c => c.responded
  | .serverStreaming c => c.responded

/-- `decoder_`. -/
def decoder : RequestServer → FrameDecoder
  | .unary c => c.decoder
  | .serverStreaming c => c.decoder

/-- The call state with another decoder. -/
def setDecoder (d : FrameDecoder) : RequestServer → RequestServer
  | .unary c => .unary { c with decoder := d }
  | .serverStreaming c => .serverStreaming { c with decoder := d }

@[simp] theorem decoder_setDecoder (d : FrameDecoder) (s : RequestServer) :
    (s.setDecoder d).decoder = d := by
  cases s <;> rfl

@[simp] theorem responded_setDecoder (d : FrameDecoder) (s : RequestServer) :
    (s.setDecoder d).responded = s.responded := by
  cases s <;> rfl

@[simp] theorem setDecoder_setDecoder (d d' : FrameDecoder) (s : RequestServer) :
    (s.setDecoder d).setDecoder d' = s.setDecoder d' := by
  cases s <;> rfl

theorem setDecoder_self (s : RequestServer) : s.setDecoder s.decoder = s := by
  cases s <;> rfl

/-- The call is refused with an error other than INTERNAL, and no handler is spawned. -/
def Refused (z : Zlib) (r : RequestServer × List ResponseCall × List Bytes) : Prop :=
  r.1.responded = true ∧ ∃ s : Status, r.2 = ((errorReply z s).calls, []) ∧ s.code ≠ .internal

theorem requestFramingError_code (d : FrameDecoder) :
    (requestFramingError d).code ≠ .internal := by
  unfold requestFramingError Status.of
  dsimp only
  split <;> decide

/-- A chunk of an open call goes to the decoder, whose error refuses the call. -/
theorem onData_chunk {z : Zlib} {s : RequestServer} (hs : s.responded = false) {chunk : Bytes}
    (hne : chunk ≠ []) :
    if (s.decoder.feed chunk).isError then Refused z (s.onData z chunk)
    else s.onData z chunk = (s.setDecoder (s.decoder.feed chunk), [], []) := by
  have hemp : chunk.isEmpty = false := by simpa using hne
  cases s with
  | unary c =>
      have hresp : c.responded = false := hs
      rw [show (unary c).decoder = c.decoder from rfl]
      cases herr : (c.decoder.feed chunk).isError with
      | true =>
          rw [if_pos rfl]
          simp only [onData, ServerCallState.onData, ServerCallState.sendError, hresp, hemp, herr,
            Bool.false_eq_true, if_false, if_true]
          exact ⟨rfl, _, rfl, requestFramingError_code _⟩
      | false =>
          rw [if_neg Bool.false_ne_true]
          simp [onData, ServerCallState.onData, hresp, hemp, herr, setDecoder]
  | serverStreaming c =>
      have hresp : c.responded = false := hs
      rw [show (serverStreaming c).decoder = c.decoder from rfl]
      cases herr : (c.decoder.feed chunk).isError with
      | true =>
          rw [if_pos rfl]
          simp only [onData, ServerStreamingCallState.onData, ServerStreamingCallState.sendError,
            hresp, hemp, herr, Bool.false_eq_true, if_false, if_true]
          exact ⟨rfl, _, rfl, requestFramingError_code _⟩
      | false =>
          rw [if_neg Bool.false_ne_true]
          simp [onData, ServerStreamingCallState.onData, hresp, hemp, herr, setDecoder]

/-- What arrives at an answered call is ignored. -/
theorem onData_responded {z : Zlib} {s : RequestServer} (hs : s.responded = true) (chunk : Bytes) :
    s.onData z chunk = (s, [], []) := by
  cases s with
  | unary c =>
      have hresp : c.responded = true := hs
      simp [onData, ServerCallState.onData, hresp]
  | serverStreaming c =>
      have hresp : c.responded = true := hs
      simp [onData, ServerStreamingCallState.onData, hresp]

theorem receive_responded {z : Zlib} {s : RequestServer} (hs : s.responded = true)
    (chunks : List Bytes) : s.receive z chunks = (s, [], []) := by
  induction chunks with
  | nil => rfl
  | cons chunk chunks ih => simp [receive, onData_responded hs, ih]

/-- The end of the request at an open call: without a message the call is refused; with one it goes
to the handler, a compressed unary request after decompression. -/
theorem onData_end {z : Zlib} {s : RequestServer} (hs : s.responded = false) :
    if s.decoder.isDone then
      match s with
      | .unary c =>
          if (c.requestEncoding.any fun enc => enc ≠ .identity) && c.decoder.compressFlag ≠ 0 then
            match decompress z (c.requestEncoding.getD .identity) c.decoder.payload
                c.maxRequestSize with
            | none => (s.onData z []).2 = ((errorReply z
                (Status.of .internal (text "request decompression failed"))).calls, [])
            | some bytes => (s.onData z []).2 = ([], [bytes])
          else (s.onData z []).2 = ([], [c.decoder.payload])
      | .serverStreaming c => (s.onData z []).2.2 = [c.decoder.payload]
    else Refused z (s.onData z []) := by
  cases s with
  | unary c =>
      have hresp : c.responded = false := hs
      cases hdone : c.decoder.isDone with
      | true =>
          -- a complete message stands, and the end of the data hands it out
          have heos := FrameDecoder.markEos_of_final (Or.inr hdone)
          have herr : c.decoder.isError = false := by
            have hstate : c.decoder.state = .done := by simpa [FrameDecoder.isDone] using hdone
            simp [FrameDecoder.isError, hstate]
          show if c.decoder.isDone = true then _ else _
          rw [hdone, if_pos rfl]
          simp only [onData, ServerCallState.onData, hresp, List.isEmpty_nil, if_true, heos,
            ServerCallState.onRequestEnd, herr, hdone, Bool.not_true, Bool.false_eq_true, if_false]
          split
          · cases decompress z (c.requestEncoding.getD .identity) c.decoder.payload
                c.maxRequestSize with
            | none => simp [ServerCallState.sendError]
            | some bytes => simp
          · rfl
      | false =>
          show if c.decoder.isDone = true then _ else _
          rw [hdone, if_neg Bool.false_ne_true]
          -- an incomplete message: its own error is answered, or the missing message
          have hnot : c.decoder.markEos.isDone = false := by
            rw [FrameDecoder.isDone_markEos]
            exact hdone
          cases herr : c.decoder.markEos.isError with
          | true =>
              simp only [onData, ServerCallState.onData, hresp, List.isEmpty_nil, if_true,
                ServerCallState.onRequestEnd, herr, Bool.false_eq_true, if_false,
                ServerCallState.sendError]
              exact ⟨rfl, _, rfl, requestFramingError_code _⟩
          | false =>
              simp only [onData, ServerCallState.onData, hresp, List.isEmpty_nil, if_true,
                ServerCallState.onRequestEnd, herr, hnot, Bool.not_false, Bool.false_eq_true,
                if_false, ServerCallState.sendError]
              exact ⟨rfl, _, rfl, by decide⟩
  | serverStreaming c =>
      have hresp : c.responded = false := hs
      cases hdone : c.decoder.isDone with
      | true =>
          have heos := FrameDecoder.markEos_of_final (Or.inr hdone)
          have herr : c.decoder.isError = false := by
            have hstate : c.decoder.state = .done := by simpa [FrameDecoder.isDone] using hdone
            simp [FrameDecoder.isError, hstate]
          show if c.decoder.isDone = true then _ else _
          rw [hdone, if_pos rfl]
          simp only [onData, ServerStreamingCallState.onData, hresp, List.isEmpty_nil, if_true,
            heos,
            ServerStreamingCallState.onRequestEnd, herr, hdone, Bool.not_true, Bool.false_eq_true,
            if_false, Option.toList_some]
      | false =>
          show if c.decoder.isDone = true then _ else _
          rw [hdone, if_neg Bool.false_ne_true]
          have hnot : c.decoder.markEos.isDone = false := by
            rw [FrameDecoder.isDone_markEos]
            exact hdone
          cases herr : c.decoder.markEos.isError with
          | true =>
              simp only [onData, ServerStreamingCallState.onData, hresp, List.isEmpty_nil, if_true,
                ServerStreamingCallState.onRequestEnd, herr, Bool.false_eq_true, if_false,
                ServerStreamingCallState.sendError]
              exact ⟨rfl, _, rfl, requestFramingError_code _⟩
          | false =>
              simp only [onData, ServerStreamingCallState.onData, hresp, List.isEmpty_nil, if_true,
                ServerStreamingCallState.onRequestEnd, herr, hnot, Bool.not_false,
                Bool.false_eq_true, if_false, ServerStreamingCallState.sendError]
              exact ⟨rfl, _, rfl, by decide⟩

theorem request_cons_silent {z : Zlib} {s s' : RequestServer} {chunk : Bytes}
    (h : s.onData z chunk = (s', [], [])) (chunks : List Bytes) :
    s.request z (chunk :: chunks) = s'.request z chunks := by
  simp only [request, List.cons_append, receive, h, List.nil_append]

/-- **What the server makes of request data.** If the decoder finds no error the end of the request
meets the decoder of all bytes, and otherwise the call is refused. -/
theorem request_spec {z : Zlib} {s : RequestServer} (hs : s.responded = false)
    (hd : s.decoder.isError = false) {chunks : List Bytes} (hne : ∀ chunk ∈ chunks, chunk ≠ []) :
    if (chunks.foldl FrameDecoder.feed s.decoder).isError then Refused z (s.request z chunks)
    else (s.request z chunks).2 =
      ((s.setDecoder (chunks.foldl FrameDecoder.feed s.decoder)).onData z []).2 := by
  induction chunks generalizing s with
  | nil =>
      rw [List.foldl_nil, hd, if_neg Bool.false_ne_true, setDecoder_self]
      simp [request, receive]
  | cons chunk chunks ih =>
      have hchunk := onData_chunk (z := z) hs (hne chunk List.mem_cons_self)
      have hrest : ∀ c ∈ chunks, c ≠ [] := fun c hc => hne c (List.mem_cons_of_mem _ hc)
      rw [List.foldl_cons]
      cases herr : (s.decoder.feed chunk).isError with
      | true =>
          -- the first error answers the call, and the rest is ignored
          rw [herr, if_pos rfl] at hchunk
          rw [FrameDecoder.foldl_feed_of_error herr, herr, if_pos rfl]
          obtain ⟨hresp, e, hcalls, hcode⟩ := hchunk
          refine ⟨?_, e, ?_, hcode⟩
          · simp [request, receive, receive_responded hresp, hresp]
          · simp [request, receive, receive_responded hresp, hcalls]
      | false =>
          rw [herr, if_neg Bool.false_ne_true] at hchunk
          have hnext := ih (s := s.setDecoder (s.decoder.feed chunk)) (by simpa using hs)
            (by simpa using herr) hrest
          rw [decoder_setDecoder, setDecoder_setDecoder] at hnext
          rw [request_cons_silent hchunk]
          exact hnext

end RequestServer

/-! ## The client -/

/-- A unary call and the results it posted, after a data closure. -/
def receiveMessageChunk (r : ClientCallState × List UnaryResultRaw) (chunk : Bytes) :
    ClientCallState × List UnaryResultRaw :=
  ((r.1.onData chunk).1, r.2 ++ (r.1.onData chunk).2)

/-- The call after the data closures of chunks of response data. -/
def receiveMessage (c : ClientCallState) (chunks : List Bytes) :
    ClientCallState × List UnaryResultRaw :=
  chunks.foldl receiveMessageChunk (c, [])

/-- A completed call ignores its data. -/
theorem foldl_receiveMessageChunk_completed {r : ClientCallState × List UnaryResultRaw}
    (h : r.1.completed = true) (chunks : List Bytes) :
    chunks.foldl receiveMessageChunk r = r := by
  induction chunks with
  | nil => rfl
  | cons chunk chunks ih =>
      have hone : receiveMessageChunk r chunk = r := by
        simp [receiveMessageChunk, ClientCallState.onData, h]
      rw [List.foldl_cons, hone, ih]

/-- **What the client makes of response data.** The call fails with the framing error of the decoder
if there is one, and is otherwise as before, but for the decoder. -/
theorem receiveMessage_spec {c : ClientCallState} (hc : c.completed = false)
    (hd : c.decoder.isError = false) {chunks : List Bytes} (hne : ∀ chunk ∈ chunks, chunk ≠ []) :
    if (chunks.foldl FrameDecoder.feed c.decoder).isError then
      (receiveMessage c chunks).1.completed = true ∧
        (receiveMessage c chunks).2 =
          [ClientCallState.frameError (chunks.foldl FrameDecoder.feed c.decoder)]
    else receiveMessage c chunks =
      ({ c with decoder := chunks.foldl FrameDecoder.feed c.decoder }, []) := by
  induction chunks generalizing c with
  | nil =>
      rw [List.foldl_nil, hd, if_neg Bool.false_ne_true]
      rfl
  | cons chunk chunks ih =>
      have hemp : chunk.isEmpty = false := by simpa using hne chunk List.mem_cons_self
      have hrest : ∀ c ∈ chunks, c ≠ [] := fun c hc => hne c (List.mem_cons_of_mem _ hc)
      have hfeed : c.feedChunk chunk = c.decoder.feed chunk := by
        simp [ClientCallState.feedChunk, hemp]
      rw [List.foldl_cons]
      cases herr : (c.decoder.feed chunk).isError with
      | true =>
          -- the first error completes the call
          have hone : receiveMessageChunk (c, []) chunk =
              ({ c with
                decoder := c.decoder.feed chunk
                completed := true
                timer := c.timer.cancel },
                [ClientCallState.frameError (c.decoder.feed chunk)]) := by
            simp [receiveMessageChunk, ClientCallState.onData, hc, ClientCallState.dataResult,
              hfeed,
              herr, ClientCallState.completeWith, ClientCallState.complete]
          rw [FrameDecoder.foldl_feed_of_error herr, herr, if_pos rfl, receiveMessage,
            List.foldl_cons, hone, foldl_receiveMessageChunk_completed rfl]
          exact ⟨rfl, rfl⟩
      | false =>
          have hone : receiveMessageChunk (c, []) chunk =
              ({ c with decoder := c.decoder.feed chunk }, []) := by
            simp [receiveMessageChunk, ClientCallState.onData, hc, ClientCallState.dataResult,
              hfeed,
              herr, ClientCallState.completeWith]
          have hnext := ih (c := { c with decoder := c.decoder.feed chunk }) hc herr hrest
          rw [receiveMessage] at hnext ⊢
          rw [List.foldl_cons, hone]
          exact hnext

end Rpcpio.Stream
