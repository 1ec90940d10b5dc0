import Rpcpio.Protocol.FeedLoops
import Rpcpio.Stream.Receivers

/-!
# The parsing loops on every input

The loop of a client's data callback runs inside a call, and the closures of the call are all that
touches the parser members. `StreamingCall.parser_step` says that an event of the call either leaves
them alone or is such a loop, so the counters hold in every reachable call (`counted_run`).
`parsing_loops_end` puts the loops of the library together.
-/

set_option autoImplicit false

namespace Rpcpio.Stream

open Rpcpio.Library Rpcpio.Protocol Rpcpio.Client

/-! ## The parser members of a call -/

@[simp] theorem lpm_fail (c : StreamingCallState) (s : Status) : (c.fail s).1.lpm = c.lpm :=
  StreamingCallState.fail_frame (fun _ => rfl) c s

@[simp] theorem lpm_onStreamClose (c : StreamingCallState) (errorCode : Nat) :
    (c.onStreamClose errorCode).1.lpm = c.lpm := by
  simp only [StreamingCallState.onStreamClose]
  split <;> rfl

@[simp] theorem lpm_onTrailers (c : StreamingCallState) (trailers : HeaderMap) :
    (c.onTrailers trailers).lpm = c.lpm :=
  StreamingCallState.onTrailers_frame (fun _ _ => rfl) c trailers

@[simp] theorem lpm_attach (c : StreamingCallState) (head : ResponseHead) :
    (c.attach head).1.lpm = c.lpm :=
  StreamingCallState.attach_frame lpm_fail c head

@[simp] theorem lpm_runIoc (c : StreamingCallState) (t : IocTask) : (c.runIoc t).lpm = c.lpm :=
  StreamingCallState.runIoc_frame (fun _ _ => rfl) (fun _ _ => rfl) (fun _ => rfl) c t

/-- A data closure runs the loop, unless the call is closed. -/
theorem lpm_onData (c : StreamingCallState) (maxMsgSize : Nat) (chunk : Bytes) :
    (c.onData maxMsgSize chunk).1.lpm =
      if c.closed then c.lpm else (c.lpm.feed maxMsgSize chunk).parser := by
  simp only [StreamingCallState.onData]
  split
  · rfl
  · have hflags := (foldl_deliver_flags { c with lpm := (c.lpm.feed maxMsgSize chunk).parser }
      (c.lpm.feed maxMsgSize chunk).messages).2
    split
    · exact hflags
    · exact (lpm_fail _ _).trans hflags

@[simp] theorem lpm_onWriter (w : StreamingCall)
    (f : RawClientWriterImpl → RawClientWriterImpl × List RequestCall) :
    (w.onWriter f).call.lpm = w.call.lpm := by
  simp only [StreamingCall.onWriter]
  split <;> rfl

@[simp] theorem lpm_cancelActive (w : StreamingCall) : w.cancelActive.call.lpm = w.call.lpm := by
  simp only [StreamingCall.cancelActive]
  split
  · exact lpm_fail _ _
  · rfl

@[simp] theorem lpm_failActive (w : StreamingCall) (s : Status) :
    (w.failActive s).call.lpm = w.call.lpm := by
  simp only [StreamingCall.failActive]
  split
  · exact lpm_fail _ _
  · rfl

/-- **An event of a call leaves the parser members alone, or feeds them a chunk.** -/
theorem parser_step {w w' : StreamingCall} {e : CallEvent} (h : w.step e = some w') :
    w'.call.lpm = w.call.lpm ∨
      ∃ maxMsgSize chunk, w'.call.lpm = (w.call.lpm.feed maxMsgSize chunk).parser := by
  cases StreamingCall.step_move h with
  | submit o =>
      left
      cases o with
      | accepted id => rfl
      | _ => exact lpm_fail _ _
  | response head => exact Or.inl (lpm_attach _ _)
  | task t rest hs =>
      cases t with
      | data maxMsgSize chunk =>
          have hdata : ({ w with strand := rest }.runTask (.data maxMsgSize chunk)).call.lpm =
              if w.call.closed then w.call.lpm
              else (w.call.lpm.feed maxMsgSize chunk).parser := lpm_onData _ _ _
          rw [hdata]
          split
          · exact Or.inl rfl
          · exact Or.inr ⟨maxMsgSize, chunk, rfl⟩
      | trailers hd => exact Or.inl (lpm_onTrailers _ _)
      | close errorCode => exact Or.inl (lpm_onStreamClose _ _)
      | enqueue frame => exact Or.inl (lpm_onWriter _ _)
      | writesDone => exact Or.inl (lpm_onWriter _ _)
      | cancel => exact Or.inl (lpm_cancelActive _)
      | deadline => exact Or.inl (lpm_fail _ _)
  | ioc i t hi => exact Or.inl (lpm_runIoc _ _)
  | cancel => exact Or.inl (lpm_cancelActive _)
  | goaway lastStreamId => exact Or.inl (lpm_failActive _ _)
  | shutdown => exact Or.inl (lpm_failActive _ _)
  | _ => exact Or.inl rfl

/-- **The counters hold in every reachable call** of any kind. -/
theorem counted_run {kind : CallKind} {ctx : Option ClientContext} {es : List CallEvent}
    {w : StreamingCall}
    (hrun : StreamingCall.machine.run (StreamingCall.new (kind.callState ctx)) es = some w) :
    w.call.lpm.Counted := by
  apply Machine.run_invariant (I := fun w : StreamingCall => w.call.lpm.Counted) _ es _ w _ hrun
  · intro w e w' hw hstep
    rcases parser_step hstep with hsame | ⟨maxMsgSize, chunk, hfed⟩
    · exact hsame ▸ hw
    · exact hfed ▸ hw.feed maxMsgSize chunk
  · cases kind <;> exact LpmReader.counted_new

/-! ## All loops -/

/-- **The parsing loops end on any bytes.** From every state that earlier calls can leave, each loop
ends with what the model computes, within one pass more than it has bytes to read, or two more in
the parser of the server; in every state on the way the counters leave room for both subtractions:
the decoder of unary messages after any uses; the parser of the server after any calls of `Feed`,
failed ones included; the data callback of the streaming calls after any data callbacks, and so in
every reachable call. -/
theorem parsing_loops_end :
    (∀ (m : Nat) (uses : List FrameDecoder.Use) (chunk : Bytes),
      let d := uses.foldl FrameDecoder.apply (.new m)
      FrameDecoder.feedWhile.Completes
        (fun s => NeedsFit s.1.headerBytes s.1.payloadLen s.1.payload)
        (chunk.length + 1) (d, chunk) (d.feed chunk)) ∧
    (∀ (m : Nat) (chunks : List Bytes) (chunk : Bytes),
      let p := chunks.foldl StreamingFrameParser.afterFeed (.new m)
      (chunkWhile StreamingFrameParser.feedIter).Completes
        (fun s => NeedsFit s.parser.headerBytes s.parser.payloadLen s.parser.payload)
        (chunk.length + 2) ⟨p, [], chunk⟩ (p.feed chunk)) ∧
    (∀ (calls : List (Nat × Bytes)) (maxMsgSize : Nat) (chunk : Bytes),
      let p := calls.foldl LpmReader.afterFeed .new
      (chunkWhile fun p => LpmReader.feedIter p maxMsgSize).Completes
        (fun s => NeedsFit s.parser.hdrBytes s.parser.payloadLen s.parser.payloadBuf)
        (chunk.length + 1) ⟨p, [], chunk⟩ (p.feed maxMsgSize chunk)) ∧
    ∀ (kind : CallKind) (ctx : Option ClientContext) (es : List CallEvent) (w : StreamingCall)
      (maxMsgSize : Nat) (chunk : Bytes),
      StreamingCall.machine.run (StreamingCall.new (kind.callState ctx)) es = some w →
        (chunkWhile fun p => LpmReader.feedIter p maxMsgSize).Completes
          (fun s => NeedsFit s.parser.hdrBytes s.parser.payloadLen s.parser.payloadBuf)
          (chunk.length + 1) ⟨w.call.lpm, [], chunk⟩ (w.call.lpm.feed maxMsgSize chunk) := by
  refine ⟨?_, ?_, ?_, ?_⟩
  · intro m uses chunk d
    exact FrameDecoder.feed_completes m uses chunk
  · intro m chunks chunk p
    exact StreamingFrameParser.feed_completes m chunks chunk
  · intro calls maxMsgSize chunk p
    exact (LpmReader.counted_new.foldl calls).feed_completes maxMsgSize chunk
  · intro kind ctx es w maxMsgSize chunk hrun
    exact (counted_run hrun).feed_completes maxMsgSize chunk

/-- A server-streaming call that has read a header and the first byte of its payload of two. -/
theorem parsing_loops_end_example :
    ∃ w, StreamingCall.machine.run (StreamingCall.new (CallKind.serverStreaming.callState none))
        [.submit (.accepted 1),
          .response ⟨200, [(text "content-type", plain (text "application/grpc"))]⟩,
          .data [0, 0, 0, 0, 2, 7], .runStrand] = some w ∧
      w.call.lpm.payloadBuf = [7] ∧
      (chunkWhile fun p => LpmReader.feedIter p 4).Completes
        (fun s => NeedsFit s.parser.hdrBytes s.parser.payloadLen s.parser.payloadBuf)
        3 ⟨w.call.lpm, [], [8, 0]⟩ (w.call.lpm.feed 4 [8, 0]) := by
  refine ⟨_, rfl, rfl, ?_⟩
  exact parsing_loops_end.2.2.2 .serverStreaming none
    [.submit (.accepted 1),
      .response ⟨200, [(text "content-type", plain (text "application/grpc"))]⟩,
      .data [0, 0, 0, 0, 2, 7], .runStrand] _ 4 [8, 0] rfl

end Rpcpio.Stream
