import Rpcpio.Stream.Receivers

/-!
# Truncated streams

The end-of-stream handlers of the four message streams set end-of-stream without a look at the
parser: `between_frames` is never called. So a stream that ends inside a header or a payload is
reported as clean, and that is the only case in which the reader is told wrong
(`truncation_reported_iff`).
-/

set_option autoImplicit false

namespace Rpcpio.Stream

open Rpcpio.Library Rpcpio.Protocol Rpcpio.Client Rpcpio.Server

/-- What the server's reader is told behind the messages: chunks of request data, and then the end
of the request. -/
def UploadServer.told (z : Zlib) (s : UploadServer) (chunks : List Bytes) : Option PopResult :=
  ((s.receive z chunks).onData z []).readerImpl.queue.ending

/-- What the client's reader is told behind the messages: chunks of response data, the trailers, and
then the closures posted to the `io_context`. -/
def told (m : Nat) (c : StreamingCallState) (chunks : List Bytes) (trailers : HeaderMap) :
    Option PopResult :=
  let r := receiveData m c chunks
  (r.2.foldl StreamingCallState.runIoc (r.1.onTrailers trailers)).reader.bind fun x =>
    x.msgQueue.ending

/-- What a reader should be told at the end of `bytes`: clean end-of-stream exactly after complete
frames, and an error if they end inside a frame. -/
def ToldRight (F : LengthPrefix UInt8 Status) (bytes : Bytes) (told : Option PopResult) : Prop :=
  (told = some .eos ↔ F.Complete bytes) ∧
    (F.EndsInside bytes → ∃ s, told = some (.error s) ∧ s.isOk = false)

/-- What it is told: clean end-of-stream unless a header was rejected. -/
def ToldByScan (F : LengthPrefix UInt8 Status) (bytes : Bytes) (told : Option PopResult) : Prop :=
  match (F.scan (.pending []) bytes).1 with
  | .pending _ => told = some .eos
  | .rejected _ => ∃ s, told = some (.error s) ∧ s.isOk = false

/-- That is right unless the bytes end inside a frame. -/
theorem ToldByScan.right_iff {F : LengthPrefix UInt8 Status} {bytes : Bytes}
    {told : Option PopResult} (h : ToldByScan F bytes told) :
    ToldRight F bytes told ↔ ¬ F.EndsInside bytes := by
  unfold ToldByScan at h
  rw [ToldRight, LengthPrefix.complete_iff, LengthPrefix.endsInside_iff]
  cases hscan : F.scan (.pending []) bytes with
  | mk state fs =>
      rw [hscan] at h
      cases state with
      | pending got =>
          have heos : told = some .eos := h
          constructor
          · rintro ⟨_, herr⟩ ⟨got', fs', hne, hgot⟩
            obtain ⟨s, hs, hbad⟩ := herr ⟨got', fs', hne, hgot⟩
            rw [heos] at hs
            cases hs
            cases hbad
          · intro hnot
            have hgot : got = [] := by
              by_contra hne
              exact hnot ⟨got, fs, hne, rfl⟩
            subst hgot
            exact ⟨⟨fun _ => ⟨fs, rfl⟩, fun _ => heos⟩, fun hin => absurd hin hnot⟩
      | rejected e =>
          obtain ⟨s, hs, hbad⟩ := h
          constructor
          · rintro _ ⟨got, fs', _, hgot⟩
            cases hgot
          · intro _
            refine ⟨⟨fun heos => ?_, ?_⟩, fun _ => ⟨s, hs, hbad⟩⟩
            · rw [hs] at heos
              cases heos
              cases hbad
            · rintro ⟨fs', hfs⟩
              cases hfs

/-! ## The four receivers -/

/-- The half-close sets end-of-stream, and leaves an error. -/
theorem UploadServer.HasRead.told {z : Zlib} {m : Nat} {bytes : Bytes} {s : UploadServer}
    (h : s.HasRead m bytes) :
    ToldByScan (serverFormat m) bytes (s.onData z []).readerImpl.queue.ending := by
  have hend := h.onData (z := z) []
  rw [List.append_nil] at hend
  obtain ⟨hqueue, _⟩ := hend
  unfold Delivers at hqueue
  simp only [ToldByScan]
  cases hscan : (serverFormat m).scan (.pending []) bytes with
  | mk state fs =>
      rw [hscan] at hqueue
      cases state with
      | rejected e =>
          obtain ⟨_, s', hs', hbad⟩ := hqueue
          exact ⟨s', by simp [StreamMessageQueue.ending, hs'], hbad⟩
      | pending got =>
          have hlisten : s.isListening = true := by
            have hstate := h.2
            rw [hscan] at hstate
            exact hstate.2
          have heos : (s.onData z []).readerImpl.queue.eos = true := by
            rw [(UploadServer.onData_halfClose hlisten).2.1]
            exact StreamMessageQueue.setEos_eos _
          simp [StreamMessageQueue.ending, hqueue.2, heos]

/-- OK trailers set end-of-stream on an open call, and do nothing to one that failed. -/
theorem HasRead.told {m : Nat} {c₀ : StreamingCallState} {bytes : Bytes}
    {r : StreamingCallState × List IocTask} (h : HasRead m c₀ bytes r) {q : RawClientReaderImpl}
    (hq : c₀.reader = some q) (herr : q.msgQueue.error = none) {trailers : HeaderMap}
    (hok : (extractTrailerStatus trailers).isOk = true) :
    ToldByScan (clientFormat m) bytes
      ((r.2.foldl StreamingCallState.runIoc (r.1.onTrailers trailers)).reader.bind fun x =>
        x.msgQueue.ending) := by
  obtain ⟨c, ts⟩ := r
  obtain ⟨hreader, _, hstate⟩ := h
  dsimp only at hreader hstate ⊢
  rw [ReaderAt.foldl_deliver hq] at hreader
  have hopen : ∀ msgs : List Bytes,
      (msgs.foldl StreamMessageQueue.push q.msgQueue).error = none := by
    intro msgs
    rw [← herr]
    exact (pushAll_queue ⟨q.msgQueue⟩ msgs).2
  simp only [ToldByScan]
  cases hscan : (clientFormat m).scan (.pending []) bytes with
  | mk state fs =>
      rw [hscan] at hreader hstate
      cases state with
      | pending got =>
          obtain ⟨hclosed, _, hts⟩ := hstate
          simp [hts, StreamingCallState.onTrailers, hclosed, StreamingCallState.maybeDeliverStatus,
            StreamingCallState.setFinalStatus, RawClientReaderImpl.setFinalStatus, hreader, hok,
            StreamMessageQueue.ending, hopen]
      | rejected e =>
          obtain ⟨hclosed, hts, hbad⟩ := hstate
          refine ⟨e, ?_, hbad⟩
          simp [hts, StreamingCallState.onTrailers, hclosed, StreamingCallState.runIoc,
            StreamingCallState.publishError, StreamingCallState.setFinalStatus,
            RawClientReaderImpl.setFinalStatus, hreader, StreamMessageQueue.ending]

/-- `Attach` that accepts a response leaves the call as it was. -/
theorem attach_accepted {c : StreamingCallState} {head : ResponseHead} {m : Nat}
    (h : (c.attach head).2.2 = some m) : (c.attach head).1 = c := by
  simp only [StreamingCallState.attach] at h ⊢
  split at h
  · cases h
  · cases h
  · rfl

/-- **Truncation is reported exactly when there is none.** Whatever the request data (response data)
and its chunks, the reader of a client-streaming or bidirectional call at the server, and of a
server-streaming or bidirectional call at the client, is told right if and only if the data do not
end inside a frame. -/
theorem truncation_reported_iff (kind : CallKind) (m : Nat) (chunks : List Bytes) :
    (∀ (z : Zlib) (maxMetadataSize maxResponseSize : Nat) (peerIdentity : Bytes) (req : Request),
      ((UploadServer.new kind m maxMetadataSize maxResponseSize peerIdentity).start z req).2 =
        true →
      (ToldRight (serverFormat m) chunks.flatten
        (((UploadServer.new kind m maxMetadataSize maxResponseSize peerIdentity).start z req).1.told
          z chunks) ↔ ¬ (serverFormat m).EndsInside chunks.flatten)) ∧
    ∀ (ctx : Option ClientContext) (head : ResponseHead) (trailers : HeaderMap),
      kind ≠ .clientStreaming → ((kind.callState ctx).attach head).2.2 = some m →
      (extractTrailerStatus trailers).isOk = true →
      (ToldRight (clientFormat m) chunks.flatten
        (told m ((kind.callState ctx).attach head).1 chunks trailers) ↔
          ¬ (clientFormat m).EndsInside chunks.flatten) := by
  constructor
  · intro z maxMetadataSize maxResponseSize peerIdentity req hstart
    have hread := UploadServer.hasRead_receive (z := z) (UploadServer.hasRead_start hstart) chunks
    exact ToldByScan.right_iff hread.told
  · intro ctx head trailers hkind hattach hok
    rw [attach_accepted hattach]
    have hnew : (kind.callState ctx).closed = false ∧ (kind.callState ctx).lpm = LpmReader.new ∧
        (kind.callState ctx).reader = some RawClientReaderImpl.new := by
      cases kind with
      | clientStreaming => exact absurd rfl hkind
      | serverStreaming => exact ⟨rfl, rfl, rfl⟩
      | bidi => exact ⟨rfl, rfl, rfl⟩
    obtain ⟨hclosed, hlpm, hreader⟩ := hnew
    have hread := hasRead_receiveData (m := m) hclosed hlpm chunks
    exact (hread.told hreader rfl hok).right_iff

/-- A server's call with a limit of four bytes, after `Start`. -/
def fourByteServer (kind : CallKind) : UploadServer :=
  ((UploadServer.new kind 4 0 0 []).start Zlib.none ⟨[], []⟩).1

/-- Two messages in three chunks. -/
theorem truncation_reported_example :
    ToldRight (serverFormat 4) [0, 0, 0, 0, 1, 7, 0, 0, 0, 0, 0]
      ((fourByteServer .bidi).told Zlib.none [[0, 0, 0], [0, 1, 7, 0], [0, 0, 0, 0]]) ∧
    ToldRight (clientFormat defaultMaxRecvSize) [0, 0, 0, 0, 1, 7, 0, 0, 0, 0, 0]
      (told defaultMaxRecvSize ((CallKind.bidi.callState none).attach grpcHead).1
        [[0, 0, 0], [0, 1, 7, 0], [0, 0, 0, 0]] okTrailers) := by
  obtain ⟨hserver, _⟩ := truncation_reported_iff .bidi 4 [[0, 0, 0], [0, 1, 7, 0], [0, 0, 0, 0]]
  obtain ⟨_, hclient⟩ := truncation_reported_iff .bidi defaultMaxRecvSize
    [[0, 0, 0], [0, 1, 7, 0], [0, 0, 0, 0]]
  constructor
  · refine (hserver Zlib.none 0 0 [] ⟨[], []⟩ (by decide)).2 ?_
    intro hin
    obtain ⟨got, fs, hne, hgot⟩ := LengthPrefix.endsInside_iff.1 hin
    cases hgot
    exact hne rfl
  · refine (hclient none grpcHead okTrailers (by decide) (by decide) (by decide)).2 ?_
    intro hin
    obtain ⟨got, fs, hne, hgot⟩ := LengthPrefix.endsInside_iff.1 hin
    cases hgot
    exact hne rfl

/-- **Truncated streams reported as clean.** Two bytes are announced and one arrives: each of the
four readers is told end-of-stream. -/
theorem not_truncation_reported :
    (∀ kind, kind = .clientStreaming ∨ kind = .bidi →
      (fourByteServer kind).told Zlib.none [[0, 0, 0, 0, 2, 7]] = some .eos ∧
      ¬ ToldRight (serverFormat 4) [0, 0, 0, 0, 2, 7]
        ((fourByteServer kind).told Zlib.none [[0, 0, 0, 0, 2, 7]])) ∧
    ∀ kind, kind = .serverStreaming ∨ kind = .bidi →
      told defaultMaxRecvSize ((CallKind.callState kind none).attach grpcHead).1
        [[0, 0, 0, 0, 2, 7]] okTrailers = some .eos ∧
      ¬ ToldRight (clientFormat defaultMaxRecvSize) [0, 0, 0, 0, 2, 7]
        (told defaultMaxRecvSize ((CallKind.callState kind none).attach grpcHead).1
          [[0, 0, 0, 0, 2, 7]] okTrailers) := by
  have hincomplete : ∀ F : LengthPrefix UInt8 Status,
      F.scan (.pending []) [0, 0, 0, 0, 2, 7] = (.pending [0, 0, 0, 0, 2, 7], []) →
      ¬ ToldRight F [0, 0, 0, 0, 2, 7] (some .eos) := by
    intro F hscan hright
    obtain ⟨fs, hfs⟩ := LengthPrefix.complete_iff.1 (hright.1.1 rfl)
    rw [hscan] at hfs
    cases hfs
  constructor
  · rintro kind (rfl | rfl)
    all_goals
      refine ⟨by decide, ?_⟩
      exact hincomplete (serverFormat 4) rfl
  · rintro kind (rfl | rfl)
    all_goals
      refine ⟨by decide, ?_⟩
      exact hincomplete (clientFormat defaultMaxRecvSize) rfl

end Rpcpio.Stream
