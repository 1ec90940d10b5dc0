import Rpcpio.Protocol.MetadataCodec
import Rpcpio.Stream.Truncation
import Rpcpio.Stream.UnaryReceivers

/-!
# Compressed frames

A frame with the compression flag should reach the application decompressed, with the encoding that
`grpc-encoding` negotiated, and should end the call with INTERNAL if there is none. Each of the
eight receivers is compared with that rule (`DecodedOnly`), on any bytes in any chunks:
`compressed_frames_decoded_iff` says on which of them it holds.
-/

set_option autoImplicit false

namespace Rpcpio.Stream

open Rpcpio.Library Rpcpio.Protocol Rpcpio.Client Rpcpio.Server

/-- The complete frames in chunks of data. -/
def framesRead (F : LengthPrefix UInt8 Status) (chunks : List Bytes) :
    List (LengthPrefix.Frame UInt8) :=
  (F.scan (.pending []) chunks.flatten).2

/-- The chunks hold one frame and nothing else. -/
def OnlyFrame (F : LengthPrefix UInt8 Status) (chunks : List Bytes)
    (f : LengthPrefix.Frame UInt8) : Prop :=
  F.scan (.pending []) chunks.flatten = (.pending [], [f])

/-- The compression flag is set. -/
def Compressed (f : LengthPrefix.Frame UInt8) : Prop := f.header.getD 0 0 = 1

/-- The encoding negotiated by `grpc-encoding`, other than identity. -/
def negotiated (z : Zlib) (h : HeaderMap) : Option Encoding :=
  (Multimap.find (text "grpc-encoding") h).bind fun v =>
    (parseEncoding z v.value).filter fun e => e ≠ .identity

theorem negotiated_ne_identity (z : Zlib) (h : HeaderMap) : negotiated z h ≠ some .identity := by
  intro hid
  obtain ⟨v, _, hv⟩ := Option.bind_eq_some_iff.1 hid
  simp [Option.filter_eq_some_iff] at hv

/-- What the unary call states make of `grpc-encoding`, if they accept it. -/
theorem negotiated_of_accepted {ε : Type} {z : Zlib} {h : HeaderMap} {refuse : HeaderValue → ε}
    {enc : Option Encoding}
    (henc : (match Multimap.find (text "grpc-encoding") h with
      | none => .ok none
      | some v =>
          if v.value = text "identity" then .ok none
          else
            match parseEncoding z v.value with
            | none => .error (refuse v)
            | some e => .ok (some e) : Except ε (Option Encoding)) = .ok enc) :
    enc = negotiated z h := by
  simp only [negotiated]
  split at henc
  · rename_i hnone
    rw [hnone]
    cases henc
    rfl
  · rename_i v hv
    rw [hv, Option.bind_some]
    split at henc
    · rename_i hid
      cases henc
      rw [hid]
      rfl
    · rename_i hid
      split at henc
      · cases henc
      · rename_i e he
        cases henc
        have hne : e ≠ .identity := by
          rintro rfl
          rw [parseEncoding, if_neg hid] at he
          split at he <;> cases he
        simp [he, Option.filter, hne]

/-- What came of the messages of a call: what the application was handed for each of them, and the
status that the call ended with. -/
structure Received where
  delivered : Nat → Option Bytes
  ended : Option Status

/-- **The rule.** A compressed frame is handed over only as the output of `Decompress` with the
negotiated encoding; with none the call ends with INTERNAL and the payload is not handed over. -/
def DecodedOnly (z : Zlib) (enc : Option Encoding) (limit : Nat)
    (fs : List (LengthPrefix.Frame UInt8)) (r : Received) : Prop :=
  ∀ (i : Nat) (f : LengthPrefix.Frame UInt8), fs[i]? = some f → Compressed f →
    match enc with
    | some e => ∀ p, r.delivered i = some p → decompress z e f.payload limit = some p
    | none => r.delivered i = none ∧ ∃ s, r.ended = some s ∧ s.code = .internal

/-- No frame is compressed. -/
def NoneCompressed (fs : List (LengthPrefix.Frame UInt8)) : Prop := ∀ f ∈ fs, ¬ Compressed f

/-- A compressed frame has a negotiated encoding that decompresses it to itself. -/
def RawIsDecoded (z : Zlib) (enc : Option Encoding) (limit : Nat)
    (f : LengthPrefix.Frame UInt8) : Prop :=
  ∃ e, enc = some e ∧ decompress z e f.payload limit = some f.payload

section

variable {z : Zlib} {enc : Option Encoding} {limit : Nat} {fs : List (LengthPrefix.Frame UInt8)}
  {r : Received}

/-- The rule for a single frame. -/
theorem decodedOnly_singleton {f : LengthPrefix.Frame UInt8} :
    DecodedOnly z enc limit [f] r ↔ (Compressed f →
      match enc with
      | some e => ∀ p, r.delivered 0 = some p → decompress z e f.payload limit = some p
      | none => r.delivered 0 = none ∧ ∃ s, r.ended = some s ∧ s.code = .internal) := by
  constructor
  · intro h
    exact h 0 f rfl
  · intro h i g hi hcomp
    rw [List.getElem?_singleton] at hi
    split at hi
    · rename_i hi0
      cases hi
      rw [hi0]
      exact h hcomp
    · cases hi

/-- A call that hands over nothing, and does not end with INTERNAL. -/
theorem decodedOnly_of_refused (hd : ∀ i, r.delivered i = none)
    (he : ∀ s, r.ended = some s → s.code ≠ .internal) :
    DecodedOnly z enc limit fs r ↔ (enc = none → NoneCompressed fs) := by
  constructor
  · rintro h rfl f hf hcomp
    obtain ⟨i, hi⟩ := List.mem_iff_getElem?.1 hf
    obtain ⟨_, s, hs, hcode⟩ := h i f hi hcomp
    exact he s hs hcode
  · intro h i f hi hcomp
    cases henc : enc with
    | some e =>
        intro p hp
        rw [hd i] at hp
        cases hp
    | none => exact absurd hcomp (h henc f (List.mem_of_getElem? hi))

/-- A call that hands over the payloads as they are. -/
theorem decodedOnly_of_raw
    (h : ∀ (i : Nat) (f : LengthPrefix.Frame UInt8), fs[i]? = some f →
      r.delivered i = some f.payload) :
    DecodedOnly z enc limit fs r ↔ ∀ f ∈ fs, Compressed f → RawIsDecoded z enc limit f := by
  constructor
  · intro hrule f hf hcomp
    obtain ⟨i, hi⟩ := List.mem_iff_getElem?.1 hf
    have hone := hrule i f hi hcomp
    cases enc with
    | none =>
        rw [h i f hi] at hone
        cases hone.1
    | some e => exact ⟨e, rfl, hone _ (h i f hi)⟩
  · intro hraw i f hi hcomp
    obtain ⟨e, rfl, hdec⟩ := hraw f (List.mem_of_getElem? hi) hcomp
    intro p hp
    rw [h i f hi, Option.some.injEq] at hp
    rw [← hp]
    exact hdec

end

/-! ## The single request of a unary and of a server-streaming call -/

/-- The status of a trailers-only response. -/
def endedBy : List ResponseCall → Option Status
  | .writeHead _ h :: _ =>
      if Multimap.contains (text "grpc-status") h then some (extractTrailerStatus h) else none
  | _ => none

/-- What a handler is spawned with. -/
def RequestServer.received (z : Zlib) (s : RequestServer) (chunks : List Bytes) : Received :=
  let r := s.request z chunks
  ⟨fun i => r.2.2[i]?, endedBy r.2.1⟩

theorem endedBy_errorReply (z : Zlib) (s : Status) : endedBy (errorReply z s).calls = some s := by
  have hstatus : Multimap.find (text "grpc-status") (addCommonHeaders z []) = none :=
    find_common_eq_none (by decide) (by decide) (by decide) []
  have hhas : Multimap.contains (text "grpc-status") (errorReply z s).head = true := by
    rw [Multimap.contains, errorReply, find_status_buildTrailers hstatus]
    rfl
  show (if Multimap.contains (text "grpc-status") (errorReply z s).head then _ else _) = _
  rw [if_pos hhas]
  exact congrArg some (extractTrailerStatus_head z s [] [])

namespace RequestServer

/-- Request data are refused, or they are one message. -/
theorem request_outcome {z : Zlib} {s : RequestServer} {m : Nat} (hs : s.responded = false)
    (hd : s.decoder = FrameDecoder.new m) {chunks : List Bytes}
    (hne : ∀ chunk ∈ chunks, chunk ≠ []) :
    ((∀ f, ¬ OnlyFrame (serverFormat m) chunks f) ∧ ∃ e : Status,
        (s.request z chunks).2 = ((errorReply z e).calls, []) ∧ e.code ≠ .internal) ∨
      ∃ f d, OnlyFrame (serverFormat m) chunks f ∧ d.isDone = true ∧ d.payload = f.payload ∧
        d.compressFlag = f.header.getD 0 0 ∧
          (s.request z chunks).2 = ((s.setDecoder d).onData z []).2 := by
  have hreads := FrameDecoder.reads_chunks m chunks
  have hspec := request_spec (z := z) hs (by rw [hd]; rfl) hne
  rw [hd] at hspec
  generalize chunks.foldl FrameDecoder.feed (FrameDecoder.new m) = d at hreads hspec
  -- a body of one frame leaves the decoder done
  have hdone_of : ∀ f, OnlyFrame (serverFormat m) chunks f → d.state = .done := by
    intro f honly
    rw [show (serverFormat m).scan (.pending []) chunks.flatten = _ from honly] at hreads
    exact hreads.2.1
  cases herr : d.isError with
  | true =>
      rw [herr, if_pos rfl] at hspec
      refine Or.inl ⟨fun f honly => ?_, hspec.2⟩
      rw [FrameDecoder.isError, hdone_of f honly] at herr
      cases herr
  | false =>
      rw [herr, if_neg Bool.false_ne_true] at hspec
      have hend := onData_end (z := z) (s := s.setDecoder d) (by simpa using hs)
      rw [decoder_setDecoder] at hend
      cases hdone : d.isDone with
      | false =>
          rw [hdone, if_neg Bool.false_ne_true] at hend
          rw [hspec]
          refine Or.inl ⟨fun f honly => ?_, hend.2⟩
          rw [FrameDecoder.isDone, hdone_of f honly] at hdone
          cases hdone
      | true =>
          have hstate : d.state ≠ .error := by simpa [FrameDecoder.isError] using herr
          apply Or.inr
          -- a decoder that is done has read one frame, and nothing behind it
          rcases hreads.cases hstate with ⟨got, ho⟩ | ⟨f, ho, _⟩
          · rw [ho] at hreads
            have hnot : d.state = .done := by simpa [FrameDecoder.isDone] using hdone
            rcases hreads.2 with ⟨hs', _⟩ | ⟨hs', _⟩ <;> (rw [hs'] at hnot; cases hnot)
          · rw [ho] at hreads
            exact ⟨f, d, ho, hdone, hreads.2.2.1, hreads.2.2.2, hspec⟩

/-- A refused request meets the rule unless a frame is compressed without an encoding. -/
theorem received_refused {z : Zlib} {s : RequestServer} {chunks : List Bytes}
    {enc : Option Encoding} {limit : Nat} {fs : List (LengthPrefix.Frame UInt8)} {e : Status}
    (h : (s.request z chunks).2 = ((errorReply z e).calls, [])) (hcode : e.code ≠ .internal) :
    DecodedOnly z enc limit fs (s.received z chunks) ↔ (enc = none → NoneCompressed fs) := by
  apply decodedOnly_of_refused
  · intro i
    simp [received, h]
  · intro t ht
    simp only [received, h, endedBy_errorReply, Option.some.injEq] at ht
    rw [← ht]
    exact hcode

/-- `Start` of a unary call that registers `on_data` has the negotiated encoding. -/
theorem start_unary {z : Zlib} {m maxMetadataSize maxResponseSize : Nat} {peerIdentity : Bytes}
    {req : Request}
    (h : ((unary (.new m maxMetadataSize maxResponseSize peerIdentity)).start z req).2 = true) :
    ∃ c, ((unary (.new m maxMetadataSize maxResponseSize peerIdentity)).start z req).1 = unary c ∧
      c.responded = false ∧ c.decoder = FrameDecoder.new m ∧ c.maxRequestSize = m ∧
        c.requestEncoding = negotiated z req.header := by
  refine ⟨_, rfl, ?_⟩
  simp only [start, ServerCallState.start] at h ⊢
  split at h
  · cases h
  · rename_i hok
    rw [if_neg hok]
    split at h
    · cases h
    · rename_i enc henc
      dsimp only
      exact ⟨rfl, rfl, rfl, negotiated_of_accepted henc⟩

/-- A unary call at the server meets the rule unless it has no encoding. -/
theorem decodedOnly_unary {z : Zlib} {c : ServerCallState} {m : Nat} {enc : Option Encoding}
    (hresp : c.responded = false) (hdec : c.decoder = FrameDecoder.new m)
    (hmax : c.maxRequestSize = m) (henc : c.requestEncoding = enc)
    (hid : enc ≠ some .identity) {chunks : List Bytes} (hne : ∀ chunk ∈ chunks, chunk ≠ []) :
    DecodedOnly z enc m (framesRead (serverFormat m) chunks) ((unary c).received z chunks) ↔
      (enc = none → NoneCompressed (framesRead (serverFormat m) chunks)) := by
  rcases request_outcome (z := z) (s := unary c) hresp hdec hne with
    ⟨hnot, e, hreq, hcode⟩ | ⟨f, d, honly, hdone, hpay, hflag, hreq⟩
  · exact received_refused hreq hcode
  · have hfs : framesRead (serverFormat m) chunks = [f] := by rw [framesRead, honly]
    have hend := onData_end (z := z) (s := (unary c).setDecoder d) hresp
    rw [decoder_setDecoder, hdone, if_pos rfl] at hend
    simp only [setDecoder] at hend hreq
    generalize (onData z [] (unary _)).2 = out at hend hreq
    rw [henc, hmax, hpay, hflag] at hend
    rw [hfs, decodedOnly_singleton]
    cases enc with
    | none =>
        -- the payload goes to the handler as it is
        rw [Option.any_none, Bool.false_and, if_neg Bool.false_ne_true] at hend
        simp [received, hreq, hend, NoneCompressed]
    | some e =>
        refine iff_of_true ?_ (fun h => by cases h)
        intro hcomp p hp
        have hne0 : f.header.getD 0 0 ≠ 0 := by
          rw [show f.header.getD 0 0 = 1 from hcomp]
          decide
        have hide : e ≠ .identity := fun h => hid (congrArg some h)
        have hcond : (((some e).any fun enc => enc ≠ .identity) &&
            decide (f.header.getD 0 0 ≠ 0)) = true := by
          rw [decide_eq_true hne0, Option.any_some, decide_eq_true hide]
          rfl
        rw [if_pos hcond, Option.getD_some] at hend
        simp only [received, hreq] at hp
        split at hend
        · rw [hend] at hp
          cases hp
        · rename_i bytes hdecomp
          rw [hend] at hp
          cases hp
          exact hdecomp

/-- A server-streaming call at the server hands over the single payload as it is. -/
theorem decodedOnly_serverStreaming {z : Zlib} {c : ServerStreamingCallState} {m : Nat}
    (enc : Option Encoding) (hresp : c.responded = false) (hdec : c.decoder = FrameDecoder.new m)
    {chunks : List Bytes} (hne : ∀ chunk ∈ chunks, chunk ≠ []) :
    DecodedOnly z enc m (framesRead (serverFormat m) chunks)
        ((serverStreaming c).received z chunks) ↔
      ∀ f ∈ framesRead (serverFormat m) chunks, Compressed f →
        ∃ e, enc = some e ∧ (OnlyFrame (serverFormat m) chunks f →
          decompress z e f.payload m = some f.payload) := by
  rcases request_outcome (z := z) (s := serverStreaming c) hresp hdec hne with
    ⟨hnot, e, hreq, hcode⟩ | ⟨f, d, honly, hdone, hpay, hflag, hreq⟩
  · rw [received_refused hreq hcode]
    constructor
    · intro hnone f hf hcomp
      cases enc with
      | none => exact absurd hcomp (hnone rfl f hf)
      | some e => exact ⟨e, rfl, fun honly => absurd honly (hnot f)⟩
    · rintro hsome rfl f hf hcomp
      obtain ⟨e, he, _⟩ := hsome f hf hcomp
      cases he
  · have hfs : framesRead (serverFormat m) chunks = [f] := by rw [framesRead, honly]
    have hend := onData_end (z := z) (s := (serverStreaming c).setDecoder d) hresp
    rw [decoder_setDecoder, hdone, if_pos rfl] at hend
    simp only [setDecoder] at hend hreq
    generalize (onData z [] (serverStreaming _)).2 = out at hend hreq
    rw [hpay] at hend
    rw [hfs, decodedOnly_singleton]
    cases enc with
    | none => simp [received, hreq, hend]
    | some e => simp [received, hreq, hend, honly]

/-- `Start` of a server-streaming call that registers `on_data` has read nothing. -/
theorem start_serverStreaming {z : Zlib} {m maxMetadataSize maxResponseSize : Nat}
    {peerIdentity : Bytes} {req : Request}
    (h : ((serverStreaming (.new m maxMetadataSize maxResponseSize peerIdentity)).start z req).2 =
      true) :
    ∃ c, ((serverStreaming (.new m maxMetadataSize maxResponseSize peerIdentity)).start z req).1 =
      serverStreaming c ∧ c.responded = false ∧ c.decoder = FrameDecoder.new m := by
  refine ⟨_, rfl, ?_⟩
  simp only [start, ServerStreamingCallState.start] at h ⊢
  split at h
  · cases h
  · rename_i hok
    rw [if_neg hok]
    exact ⟨rfl, rfl⟩

end RequestServer

/-! ## The message streams at the server -/

/-- What the reader hands over, and the error behind it. -/
def UploadServer.received (z : Zlib) (s : UploadServer) (chunks : List Bytes) : Received :=
  let q := ((s.receive z chunks).onData z []).readerImpl.queue
  ⟨fun i => q.buffer[i]?, q.error⟩

/-- A message stream at the server hands over every payload as it is. -/
theorem UploadServer.decodedOnly {z : Zlib} {s : UploadServer} {m : Nat} (enc : Option Encoding)
    (h : s.HasRead m []) (chunks : List Bytes) :
    DecodedOnly z enc m (framesRead (serverFormat m) chunks) (s.received z chunks) ↔
      ∀ f ∈ framesRead (serverFormat m) chunks, Compressed f → RawIsDecoded z enc m f := by
  apply decodedOnly_of_raw
  intro i f hi
  have hread := (UploadServer.hasRead_receive (z := z) h chunks).onData (z := z) []
  rw [List.nil_append, List.append_nil] at hread
  have hqueue := hread.1
  unfold Delivers at hqueue
  unfold framesRead at hi
  have hpay : (payloadsOf ((serverFormat m).scan (.pending []) chunks.flatten).2)[i]? =
      some f.payload := by
    rw [payloadsOf, List.getElem?_map, hi]
    rfl
  show ((s.receive z chunks).onData z []).readerImpl.queue.buffer[i]? = some f.payload
  cases hscan : (serverFormat m).scan (.pending []) chunks.flatten with
  | mk state fs =>
      rw [hscan] at hqueue hpay
      cases state with
      | pending got =>
          rw [hqueue.1]
          exact hpay
      | rejected e =>
          obtain ⟨rest, hrest⟩ := hqueue.1
          rw [← hrest, List.getElem?_append_left (List.getElem?_eq_some_iff.1 hpay).1]
          exact hpay

/-! ## The single response of a unary call -/

/-- What the application gets of a unary call: the data closures, with or without the empty one at
the end of the data, and then the trailers. -/
def receivedMessage (z : Zlib) (c : ClientCallState) (chunks : List Bytes) (eos : Bool)
    (trailers : HeaderMap) : Received :=
  let r := receiveMessage c (chunks ++ if eos then [[]] else [])
  let results := r.2 ++ (r.1.onTrailers z trailers).2
  ⟨fun i => results.head?.bind fun x =>
      if i = 0 ∧ x.status.isOk ∧ x.hasResponse then some x.responseBytes else none,
    results.head?.map (·.status)⟩

/-- The result of a unary call for one message: what the trailers closure completes with. -/
def messageResult (z : Zlib) (c : ClientCallState) (d : FrameDecoder) (trailers : HeaderMap) :
    Option UnaryResultRaw :=
  { c with decoder := d }.trailersResult z trailers

/-- Response data are a framing error, part of a frame, or one message. -/
theorem message_outcome {c : ClientCallState} {m : Nat} (hopen : c.completed = false)
    (hdec : c.decoder = FrameDecoder.new m) {chunks : List Bytes}
    (hne : ∀ chunk ∈ chunks, chunk ≠ []) (z : Zlib) (eos : Bool) (trailers : HeaderMap) :
    ((∀ f, ¬ OnlyFrame (serverFormat m) chunks f) ∧
      (framesRead (serverFormat m) chunks = [] ∨ ∃ d : FrameDecoder, d.limitExceeded = false ∧
        receivedMessage z c chunks eos trailers =
          ⟨fun _ => none, some (ClientCallState.frameError d).status⟩)) ∨
      ∃ f d, OnlyFrame (serverFormat m) chunks f ∧ d.isDone = true ∧ d.payload = f.payload ∧
        d.compressFlag = f.header.getD 0 0 ∧
          receivedMessage z c chunks eos trailers =
            ⟨fun i => (messageResult z c d trailers).bind fun x =>
              if i = 0 ∧ x.status.isOk ∧ x.hasResponse then some x.responseBytes else none,
            (messageResult z c d trailers).map (·.status)⟩ := by
  have hreads := FrameDecoder.reads_chunks m chunks
  have hlimit := FrameDecoder.limit_chunks m chunks
  have hspec := receiveMessage_spec hopen (by rw [hdec]; rfl) hne
  rw [hdec] at hspec
  generalize chunks.foldl FrameDecoder.feed (FrameDecoder.new m) = d at hreads hlimit hspec
  have hfold : receiveMessage c (chunks ++ if eos then [[]] else []) =
      (if eos then [[]] else []).foldl receiveMessageChunk (receiveMessage c chunks) := by
    rw [receiveMessage, List.foldl_append]
    rfl
  cases herr : d.isError with
  | true =>
      rw [herr, if_pos rfl] at hspec
      obtain ⟨hdone, hres⟩ := hspec
      refine Or.inl ⟨fun f honly => ?_, ?_⟩
      · rw [show (serverFormat m).scan (.pending []) chunks.flatten = _ from honly] at hreads
        rw [FrameDecoder.isError, hreads.2.1] at herr
        cases herr
      · cases hl : d.limitExceeded with
        | true => exact Or.inl (hlimit hl)
        | false =>
            refine Or.inr ⟨d, hl, ?_⟩
            rw [foldl_receiveMessageChunk_completed hdone] at hfold
            simp [receivedMessage, hfold, hres, ClientCallState.onTrailers, hdone,
              ClientCallState.frameError, UnaryResultRaw.of]
  | false =>
      rw [herr, if_neg Bool.false_ne_true] at hspec
      have hstate : d.state ≠ .error := by simpa [FrameDecoder.isError] using herr
      rcases hreads.cases hstate with ⟨got, ho⟩ | ⟨f, ho, hst⟩
      · refine Or.inl ⟨fun f honly => ?_, Or.inl ?_⟩
        · rw [OnlyFrame, ho] at honly
          cases honly
        · rw [framesRead, ho]
      · rw [ho] at hreads
        have hdone : d.isDone = true := by simp [FrameDecoder.isDone, hst]
        refine Or.inr ⟨f, d, ho, hdone, hreads.2.2.1, hreads.2.2.2, ?_⟩
        -- the end of the data changes no complete message
        have heos : receiveMessageChunk ({ c with decoder := d }, []) [] =
            ({ c with decoder := d }, []) := by
          have hmark := FrameDecoder.markEos_of_final (d := d) (Or.inr hdone)
          simp [receiveMessageChunk, ClientCallState.onData, hopen, ClientCallState.dataResult,
            ClientCallState.feedChunk, hmark, herr, ClientCallState.completeWith]
        have hall : receiveMessage c (chunks ++ if eos then [[]] else []) =
            ({ c with decoder := d }, []) := by
          rw [hfold, hspec]
          cases eos with
          | false => rfl
          | true => exact heos
        obtain ⟨x, hx⟩ := UnaryCompletion.trailersResult_isSome (z := z)
          (c := { c with decoder := d }) hopen trailers
        have hres :
            (({ c with decoder := d } : ClientCallState).onTrailers z trailers).2 = [x] := by
          rw [ClientCallState.onTrailers, if_neg (by simp [hopen]), hx]
          simp [ClientCallState.completeWith, ClientCallState.complete, hopen]
        rw [receivedMessage, hall, hres, messageResult, hx]
        rfl

/-- Without an encoding the call ends with the status of the trailers. -/
theorem messageResult_status {z : Zlib} {c : ClientCallState} {d : FrameDecoder}
    {trailers : HeaderMap} (hopen : c.completed = false) (henc : c.responseEncoding = none) :
    ∃ x, messageResult z c d trailers = some x ∧ x.status = extractTrailerStatus trailers := by
  simp only [messageResult, ClientCallState.trailersResult]
  rw [if_neg (by simp [hopen])]
  have hneed : ({ c with decoder := d } : ClientCallState).needsDecompression trailers = false := by
    simp [ClientCallState.needsDecompression, henc]
  simp only [hneed, Bool.false_eq_true, if_false]
  split <;> exact ⟨_, rfl, rfl⟩

/-- A compressed message is handed over decompressed. -/
theorem messageResult_compressed {z : Zlib} {c : ClientCallState} {d : FrameDecoder} {e : Encoding}
    {trailers : HeaderMap} {x : UnaryResultRaw} (hopen : c.completed = false)
    (hdone : d.isDone = true) (henc : c.responseEncoding = some e) (hid : e ≠ .identity)
    (hflag : d.compressFlag ≠ 0) (hx : messageResult z c d trailers = some x)
    (hok : x.status.isOk = true) :
    decompress z e d.payload (maxReceiveMessageSize c.ctx) = some x.responseBytes := by
  unfold messageResult ClientCallState.trailersResult at hx
  rw [if_neg (by simp [hopen])] at hx
  dsimp only at hx
  cases hst : (extractTrailerStatus trailers).isOk with
  | false =>
      rw [hst, Bool.not_false, if_pos rfl] at hx
      cases hx
      rw [show _ = false from hst] at hok
      cases hok
  | true =>
      have hneed : ({ c with decoder := d } : ClientCallState).needsDecompression trailers =
          true := by
        simp [ClientCallState.needsDecompression, hopen, hst, henc, hid, hflag]
      rw [hst, Bool.not_true, if_neg Bool.false_ne_true, hneed, if_pos rfl, hdone, if_pos rfl, henc,
        Option.getD_some] at hx
      split at hx
      · cases hx
        cases hok
      · rename_i bytes hdecomp
        cases hx
        exact hdecomp

/-- A unary call meets the rule unless it has no encoding and a single message, which ends the call
with the status of the trailers. -/
theorem decodedOnly_message {z : Zlib} {c : ClientCallState} {m : Nat} {enc : Option Encoding}
    (hopen : c.completed = false) (hdec : c.decoder = FrameDecoder.new m)
    (hmax : maxReceiveMessageSize c.ctx = m) (henc : c.responseEncoding = enc)
    (hid : enc ≠ some .identity) {chunks : List Bytes} (hne : ∀ chunk ∈ chunks, chunk ≠ [])
    (eos : Bool) (trailers : HeaderMap) :
    DecodedOnly z enc m (framesRead (serverFormat m) chunks)
        (receivedMessage z c chunks eos trailers) ↔
      (enc = none → ∀ f, OnlyFrame (serverFormat m) chunks f → Compressed f →
        (extractTrailerStatus trailers).code = .internal) := by
  rcases message_outcome hopen hdec hne z eos trailers with
    ⟨hnot, hbad⟩ | ⟨f, d, honly, hdone, hpay, hflag, hrec⟩
  · -- nothing is handed over, and a frame followed by more is a framing error
    refine iff_of_true ?_ fun _ f honly => absurd honly (hnot f)
    intro i g hi hcomp
    rcases hbad with hnone | ⟨d, hl, hrec⟩
    · rw [hnone] at hi
      cases hi
    · rw [hrec]
      cases enc with
      | some e =>
          intro p hp
          cases hp
      | none => exact ⟨rfl, _, rfl, by simp [ClientCallState.frameError, UnaryResultRaw.of, hl,
          Status.of]⟩
  · have hfs : framesRead (serverFormat m) chunks = [f] := by rw [framesRead, honly]
    have hone : ∀ g, OnlyFrame (serverFormat m) chunks g ↔ g = f := by
      intro g
      rw [OnlyFrame, show (serverFormat m).scan (.pending []) chunks.flatten = _ from honly]
      simp [eq_comm]
    rw [hfs, hrec, decodedOnly_singleton]
    simp only [hone, forall_eq]
    cases enc with
    | none =>
        -- without an encoding the raw payload is handed over under the status of the trailers
        obtain ⟨x, hx, hst⟩ := @messageResult_status z _ d trailers hopen henc
        rw [hx]
        constructor
        · intro h _ hcomp
          obtain ⟨_, s, hs, hcode⟩ := h hcomp
          cases hs
          rw [← hst]
          exact hcode
        · intro h hcomp
          have hcode : x.status.code = .internal := by
            rw [hst]
            exact h rfl hcomp
          have hbad : x.status.isOk = false := by
            rw [Status.isOk, hcode]
            rfl
          exact ⟨by simp [hbad], _, rfl, hcode⟩
    | some e =>
        -- with one, a message that is handed over is what the inflater made of the payload
        refine iff_of_true ?_ (fun h => by cases h)
        intro hcomp p hp
        have hide : e ≠ .identity := fun h => hid (congrArg some h)
        have hne0 : d.compressFlag ≠ 0 := by
          rw [hflag, show f.header.getD 0 0 = 1 from hcomp]
          decide
        obtain ⟨x, hx, hite⟩ := Option.bind_eq_some_iff.1 hp
        split at hite
        · rename_i hcond
          cases hite
          rw [← hpay, ← hmax]
          exact messageResult_compressed hopen hdone henc hide hne0 hx hcond.2.1
        · cases hite

/-- `Attach` of a unary call that accepts a response has the negotiated encoding. -/
theorem attach_message {z : Zlib} {ctx : Option ClientContext} {head : ResponseHead}
    (h : ((ClientCallState.new ctx).attach z head).2.2 = true) :
    ((ClientCallState.new ctx).attach z head).1.completed = false ∧
      ((ClientCallState.new ctx).attach z head).1.decoder =
        FrameDecoder.new (maxReceiveMessageSize ctx) ∧
      ((ClientCallState.new ctx).attach z head).1.ctx = ctx ∧
      ((ClientCallState.new ctx).attach z head).1.responseEncoding =
        negotiated z head.header := by
  cases hv : (ClientCallState.new ctx).headResult z head with
  | error r => simp [ClientCallState.attach, hv] at h
  | ok enc =>
      simp only [ClientCallState.attach, hv]
      refine ⟨rfl, rfl, rfl, ?_⟩
      unfold ClientCallState.headResult at hv
      dsimp only at hv
      split at hv
      · cases hv
      · split at hv
        · cases hv
        · split at hv
          · cases hv
          · rename_i enc' henc
            split at hv
            · cases hv
            · cases hv
              exact negotiated_of_accepted henc

/-! ## The message streams at the client -/

/-- What the application gets of a streaming call: the data closures, the trailers, and the closures
posted to the `io_context`. A reader hands over messages in order; a writer the last message, once
the call ended with OK. -/
def receivedStream (m : Nat) (c : StreamingCallState) (chunks : List Bytes)
    (trailers : HeaderMap) : Received :=
  let r := receiveData m c chunks
  let d := r.2.foldl StreamingCallState.runIoc (r.1.onTrailers trailers)
  match d.reader, d.writer with
  | some x, _ => ⟨fun i => x.msgQueue.buffer[i]?, x.finish⟩
  | none, some w =>
      ⟨fun i =>
        if i + 1 = (framesRead (clientFormat m) chunks).length ∧ w.finish.any Status.isOk ∧
          w.hasResponse then some w.responseBytes else none, w.finish⟩
  | none, none => ⟨fun _ => none, none⟩

/-- No header in the chunks is rejected. -/
def Unrejected (F : LengthPrefix UInt8 Status) (chunks : List Bytes) : Prop :=
  ∃ got, (F.scan (.pending []) chunks.flatten).1 = .pending got

/-- A call with a reader hands over every payload as it is. -/
theorem decodedOnly_reader {z : Zlib} {m : Nat} {c : StreamingCallState} (enc : Option Encoding)
    (hopen : c.closed = false) (hlpm : c.lpm = LpmReader.new)
    (hreader : c.reader = some RawClientReaderImpl.new) (chunks : List Bytes)
    (trailers : HeaderMap) :
    DecodedOnly z enc m (framesRead (clientFormat m) chunks)
        (receivedStream m c chunks trailers) ↔
      ∀ f ∈ framesRead (clientFormat m) chunks, Compressed f → RawIsDecoded z enc m f := by
  apply decodedOnly_of_raw
  intro i f hi
  have hread := hasRead_receiveData (m := m) hopen hlpm chunks
  have hpay : (payloadsOf (framesRead (clientFormat m) chunks))[i]? = some f.payload := by
    rw [payloadsOf, List.getElem?_map, hi]
    rfl
  have hq := hread.reader
  rw [ReaderAt.foldl_deliver hreader] at hq
  have hbuf := (pushAll_queue ⟨StreamMessageQueue.new⟩
    (payloadsOf (framesRead (clientFormat m) chunks))).1
  rw [show (StreamMessageQueue.new).buffer = [] from rfl, List.nil_append] at hbuf
  -- what follows the data ends the queue and leaves its messages
  have hkeep : ∃ x, (((receiveData m c chunks).2.foldl StreamingCallState.runIoc
      ((receiveData m c chunks).1.onTrailers trailers)).reader = some x) ∧
      x.msgQueue.buffer = payloadsOf (framesRead (clientFormat m) chunks) := by
    have hstate := hread.state
    rw [framesRead] at hbuf ⊢
    cases hscan : (clientFormat m).scan (.pending []) chunks.flatten with
    | mk state fs =>
        rw [hscan] at hstate hq hbuf
        cases state with
        | pending got =>
            obtain ⟨hclosed, _, hts⟩ := hstate
            rw [hts, List.foldl_nil, StreamingCallState.onTrailers, if_neg (by simp [hclosed])]
            simp only [StreamingCallState.maybeDeliverStatus, StreamingCallState.setFinalStatus, hq,
              Option.map_some]
            refine ⟨_, rfl, ?_⟩
            simp only [RawClientReaderImpl.setFinalStatus]
            split
            · exact (StreamMessageQueue.setEos_buffer _).trans hbuf
            · exact (StreamMessageQueue.setError_buffer _ _).trans hbuf
        | rejected e =>
            obtain ⟨hclosed, hts, _⟩ := hstate
            rw [hts, StreamingCallState.onTrailers, if_pos hclosed]
            simp only [List.foldl_cons, List.foldl_nil, StreamingCallState.runIoc,
              StreamingCallState.publishError, StreamingCallState.setFinalStatus, hq,
              Option.map_some]
            exact ⟨_, rfl, (StreamMessageQueue.setError_buffer _ _).trans hbuf⟩
  obtain ⟨x, hx, hxbuf⟩ := hkeep
  simp only [receivedStream, hx]
  rw [hxbuf]
  exact hpay

/-- The last payload is the payload of the last frame. -/
theorem payloadsOf_last {fs : List (LengthPrefix.Frame UInt8)} {i : Nat}
    {f : LengthPrefix.Frame UInt8} (hi : fs[i]? = some f) (hlen : i + 1 = fs.length) :
    (payloadsOf fs).isEmpty = false ∧ (payloadsOf fs).getLastD [] = f.payload := by
  have hlast : (payloadsOf fs).getLast? = some f.payload := by
    rw [List.getLast?_eq_getElem?, payloadsOf, List.length_map, ← hlen, List.getElem?_map,
      Nat.add_sub_cancel, hi]
    rfl
  refine ⟨?_, by rw [List.getLastD_eq_getLast?, hlast]; rfl⟩
  by_contra hempty
  rw [Bool.not_eq_false, List.isEmpty_iff] at hempty
  rw [hempty] at hlast
  cases hlast

/-- What a call with a writer alone received: the status of the trailers with the payload of the
last frame, or the error of an oversized message. -/
theorem receivedStream_writer {m : Nat} {c : StreamingCallState} (hopen : c.closed = false)
    (hlpm : c.lpm = LpmReader.new) (hreader : c.reader = none)
    (hwriter : c.writer = some RawClientWriterImpl.new) (chunks : List Bytes)
    (trailers : HeaderMap) :
    ∃ (w : RawClientWriterImpl) (s : Status), receivedStream m c chunks trailers =
        ⟨fun i =>
          if i + 1 = (framesRead (clientFormat m) chunks).length ∧ s.isOk ∧ w.hasResponse then
            some w.responseBytes else none, some s⟩ ∧
      ((Unrejected (clientFormat m) chunks ∧ s = extractTrailerStatus trailers) ∨
        (¬ Unrejected (clientFormat m) chunks ∧ s.isOk = false ∧ s.code ≠ .internal)) ∧
      ∀ (i : Nat) (f : LengthPrefix.Frame UInt8),
        (framesRead (clientFormat m) chunks)[i]? = some f →
          i + 1 = (framesRead (clientFormat m) chunks).length →
            w.hasResponse = true ∧ w.responseBytes = f.payload := by
  have hread := hasRead_receiveData (m := m) hopen hlpm chunks
  obtain ⟨hnone, hw⟩ := foldl_deliver_writer hreader hwriter
    (payloadsOf (framesRead (clientFormat m) chunks))
  generalize hkeep : { RawClientWriterImpl.new with
    responseBytes := (payloadsOf (framesRead (clientFormat m) chunks)).getLastD
      RawClientWriterImpl.new.responseBytes
    hasResponse := RawClientWriterImpl.new.hasResponse ||
      !(payloadsOf (framesRead (clientFormat m) chunks)).isEmpty } = w at hw
  have hr' : (receiveData m c chunks).1.reader = none := hread.reader.trans hnone
  have hw' : (receiveData m c chunks).1.writer = some w := hread.writer.trans hw
  -- each payload overwrites the one before; the last one stays
  have hlast : ∀ (i : Nat) (f : LengthPrefix.Frame UInt8),
      (framesRead (clientFormat m) chunks)[i]? = some f →
        i + 1 = (framesRead (clientFormat m) chunks).length →
          w.hasResponse = true ∧ w.responseBytes = f.payload := by
    intro i f hi hlen
    obtain ⟨hsome, hbytes⟩ := payloadsOf_last hi hlen
    rw [← hkeep]
    exact ⟨by simp [hsome], hbytes⟩
  have hstate := hread.state
  cases hscan : (clientFormat m).scan (.pending []) chunks.flatten with
  | mk state fs =>
      rw [hscan] at hstate
      cases state with
      | pending got =>
          obtain ⟨hclosed, _, hts⟩ := hstate
          refine ⟨w, extractTrailerStatus trailers, ?_, Or.inl ⟨⟨got, by rw [hscan]⟩, rfl⟩, hlast⟩
          simp [receivedStream, hts, StreamingCallState.onTrailers, hclosed,
            StreamingCallState.maybeDeliverStatus, StreamingCallState.setFinalStatus, hr', hw',
            RawClientWriterImpl.finish, RawClientWriterImpl.setFinalStatus]
      | rejected e =>
          -- the framing error has closed the call, and the trailers come too late
          obtain ⟨hclosed, hts, hbad⟩ := hstate
          refine ⟨w, e, ?_, Or.inr ⟨?_, hbad, by rw [scan_client_code hscan]; decide⟩, hlast⟩
          · simp [receivedStream, hts, StreamingCallState.onTrailers, hclosed,
              StreamingCallState.runIoc, StreamingCallState.publishError,
              StreamingCallState.setFinalStatus, hr', hw', RawClientWriterImpl.finish,
              RawClientWriterImpl.setFinalStatus]
          · rintro ⟨got, hgot⟩
            rw [hscan] at hgot
            cases hgot

/-- A call with a writer alone hands over the last payload as it is, and ends with the status of the
trailers. -/
theorem decodedOnly_writer {z : Zlib} {m : Nat} {c : StreamingCallState} (enc : Option Encoding)
    (hopen : c.closed = false) (hlpm : c.lpm = LpmReader.new) (hreader : c.reader = none)
    (hwriter : c.writer = some RawClientWriterImpl.new) (chunks : List Bytes)
    (trailers : HeaderMap) :
    DecodedOnly z enc m (framesRead (clientFormat m) chunks)
        (receivedStream m c chunks trailers) ↔
      ∀ (i : Nat) (f : LengthPrefix.Frame UInt8),
        (framesRead (clientFormat m) chunks)[i]? = some f → Compressed f →
        match enc with
        | none => Unrejected (clientFormat m) chunks ∧
            (extractTrailerStatus trailers).code = .internal
        | some e => Unrejected (clientFormat m) chunks →
            (extractTrailerStatus trailers).isOk = true →
            i + 1 = (framesRead (clientFormat m) chunks).length →
            decompress z e f.payload m = some f.payload := by
  obtain ⟨w, s, hrec, hs, hkept⟩ :=
    receivedStream_writer (m := m) hopen hlpm hreader hwriter chunks trailers
  rw [hrec]
  simp only [DecodedOnly]
  refine forall_congr' fun i => forall_congr' fun f => imp_congr_right fun hi =>
    imp_congr_right fun _ => ?_
  cases enc with
  | none =>
      dsimp only
      -- the status is that of the trailers, or the framing error, which is never `INTERNAL`
      rcases hs with ⟨hun, rfl⟩ | ⟨hno, _, hcode⟩
      · constructor
        · rintro ⟨_, s', hs', hc⟩
          cases hs'
          exact ⟨hun, hc⟩
        · rintro ⟨_, hc⟩
          have hbad : (extractTrailerStatus trailers).isOk = false := by
            rw [Status.isOk, hc]
            rfl
          exact ⟨by simp [hbad], _, rfl, hc⟩
      · refine iff_of_false ?_ fun h => hno h.1
        rintro ⟨_, s', hs', hc⟩
        cases hs'
        exact hcode hc
  | some e =>
      dsimp only
      -- only the last frame is handed over, and only under a status that is OK
      rcases hs with ⟨hun, rfl⟩ | ⟨hno, hbad, _⟩
      · constructor
        · intro h _ hok hlen
          obtain ⟨hhas, hbytes⟩ := hkept i f hi hlen
          have hdec := h _ (if_pos ⟨hlen, hok, hhas⟩)
          rwa [hbytes] at hdec
        · intro h p hp
          split at hp
          · rename_i hcond
            cases hp
            rw [(hkept i f hi hcond.1).2]
            exact h hun hcond.2.1 hcond.1
          · cases hp
      · refine iff_of_true ?_ fun h => absurd h hno
        intro p hp
        simp [hbad] at hp

/-! ## All receivers -/

/-- **Compressed frames are decoded only by the unary calls.** On any data in any chunks (where an
empty chunk is the end of the data) each receiver meets the rule exactly under its condition. A
unary server call does so unless frames are compressed without an encoding; the other server calls
do so only if every compressed frame they hand over is its own decompression. A unary client call
does so unless a single message is compressed without an encoding; a call with a reader only if
every compressed frame is its own decompression, and one with a writer alone only if its last one
is. -/
theorem compressed_frames_decoded_iff (z : Zlib) :
    (∀ (m maxMetadataSize maxResponseSize : Nat) (peerIdentity : Bytes) (req : Request)
      (chunks : List Bytes),
      let c := (RequestServer.unary (.new m maxMetadataSize maxResponseSize peerIdentity)).start
        z req
      let fs := framesRead (serverFormat m) chunks
      c.2 = true → (∀ chunk ∈ chunks, chunk ≠ []) →
      (DecodedOnly z (negotiated z req.header) m fs (c.1.received z chunks) ↔
        (negotiated z req.header = none → NoneCompressed fs))) ∧
    (∀ (m maxMetadataSize maxResponseSize : Nat) (peerIdentity : Bytes) (req : Request)
      (chunks : List Bytes),
      let c := (RequestServer.serverStreaming
        (.new m maxMetadataSize maxResponseSize peerIdentity)).start z req
      let fs := framesRead (serverFormat m) chunks
      c.2 = true → (∀ chunk ∈ chunks, chunk ≠ []) →
      (DecodedOnly z (negotiated z req.header) m fs (c.1.received z chunks) ↔
        ∀ f ∈ fs, Compressed f → ∃ e, negotiated z req.header = some e ∧
          (OnlyFrame (serverFormat m) chunks f →
            decompress z e f.payload m = some f.payload))) ∧
    (∀ (kind : CallKind) (m maxMetadataSize maxResponseSize : Nat)
      (peerIdentity : Bytes) (req : Request) (chunks : List Bytes),
      let c := (UploadServer.new kind m maxMetadataSize maxResponseSize peerIdentity).start z req
      let fs := framesRead (serverFormat m) chunks
      c.2 = true →
      (DecodedOnly z (negotiated z req.header) m fs (c.1.received z chunks) ↔
        ∀ f ∈ fs, Compressed f → RawIsDecoded z (negotiated z req.header) m f)) ∧
    (∀ (ctx : Option ClientContext) (head : ResponseHead) (chunks : List Bytes)
      (eos : Bool) (trailers : HeaderMap),
      let c := (ClientCallState.new ctx).attach z head
      let m := maxReceiveMessageSize ctx
      c.2.2 = true → (∀ chunk ∈ chunks, chunk ≠ []) →
      (DecodedOnly z (negotiated z head.header) m (framesRead (serverFormat m) chunks)
          (receivedMessage z c.1 chunks eos trailers) ↔
        (negotiated z head.header = none → ∀ f, OnlyFrame (serverFormat m) chunks f →
          Compressed f → (extractTrailerStatus trailers).code = .internal))) ∧
    (∀ (kind : CallKind) (ctx : Option ClientContext) (head : ResponseHead) (m : Nat)
      (chunks : List Bytes) (trailers : HeaderMap),
      let c := (kind.callState ctx).attach head
      let fs := framesRead (clientFormat m) chunks
      kind ≠ .clientStreaming → c.2.2 = some m →
      (DecodedOnly z (negotiated z head.header) m fs (receivedStream m c.1 chunks trailers) ↔
        ∀ f ∈ fs, Compressed f → RawIsDecoded z (negotiated z head.header) m f)) ∧
    ∀ (ctx : Option ClientContext) (head : ResponseHead) (m : Nat)
      (chunks : List Bytes) (trailers : HeaderMap),
      let c := (CallKind.clientStreaming.callState ctx).attach head
      let fs := framesRead (clientFormat m) chunks
      c.2.2 = some m →
      (DecodedOnly z (negotiated z head.header) m fs (receivedStream m c.1 chunks trailers) ↔
        ∀ (i : Nat) (f : LengthPrefix.Frame UInt8), fs[i]? = some f → Compressed f →
          match negotiated z head.header with
          | none => Unrejected (clientFormat m) chunks ∧
              (extractTrailerStatus trailers).code = .internal
          | some e => Unrejected (clientFormat m) chunks →
              (extractTrailerStatus trailers).isOk = true → i + 1 = fs.length →
              decompress z e f.payload m = some f.payload) := by
  refine ⟨?_, ?_, ?_, ?_, ?_, ?_⟩
  · -- the request of a unary call
    intro m maxMetadataSize maxResponseSize peerIdentity req chunks c fs hstart hne
    obtain ⟨d, hd, hresp, hdec, hmax, henc⟩ := RequestServer.start_unary hstart
    rw [show c.1 = _ from hd]
    exact RequestServer.decodedOnly_unary hresp hdec hmax henc (negotiated_ne_identity _ _) hne
  · -- the request of a server-streaming call
    intro m maxMetadataSize maxResponseSize peerIdentity req chunks c fs hstart hne
    obtain ⟨d, hd, hresp, hdec⟩ := RequestServer.start_serverStreaming hstart
    rw [show c.1 = _ from hd]
    exact RequestServer.decodedOnly_serverStreaming _ hresp hdec hne
  · -- the upload of a call whose handler reads
    intro kind m maxMetadataSize maxResponseSize peerIdentity req chunks c fs hstart
    exact UploadServer.decodedOnly _ (UploadServer.hasRead_start hstart) chunks
  · -- the response of a unary call
    intro ctx head chunks eos trailers c m hattach hne
    obtain ⟨hopen, hdec, hctx, henc⟩ := attach_message hattach
    exact decodedOnly_message hopen hdec (by rw [hctx]) henc (negotiated_ne_identity _ _) hne eos
      trailers
  · -- the responses that a reader takes
    intro kind ctx head m chunks trailers c fs hkind hattach
    rw [show c.1 = _ from attach_accepted hattach]
    cases kind with
    | clientStreaming => exact absurd rfl hkind
    | serverStreaming => exact decodedOnly_reader _ rfl rfl rfl chunks trailers
    | bidi => exact decodedOnly_reader _ rfl rfl rfl chunks trailers
  · -- the response that the writer of an upload takes with `Finish`
    intro ctx head m chunks trailers c fs hattach
    rw [show c.1 = _ from attach_accepted hattach]
    exact decodedOnly_writer _ rfl rfl rfl rfl chunks trailers

/-- A build with an inflater that doubles its input. -/
def doublingZlib : Zlib := ⟨true, fun src _ => some (src ++ src)⟩

/-- The header block of a peer that compresses. -/
def gzipHeader : HeaderMap :=
  [(text "content-type", plain (text "application/grpc")),
    (text "grpc-encoding", plain (text "gzip"))]

/-- A message of one byte with the compression flag, in two chunks. -/
def compressedChunks : List Bytes := [[1, 0, 0], [0, 1, 7]]

/-- A compressed message with `grpc-encoding: gzip` in the unary calls, and a plain message in the
others. -/
theorem compressed_frames_decoded_example :
    DecodedOnly doublingZlib (some .gzip) 4 (framesRead (serverFormat 4) compressedChunks)
      (((RequestServer.unary (.new 4 1000 0 [])).start doublingZlib ⟨gzipHeader, []⟩).1.received
        doublingZlib compressedChunks) ∧
    DecodedOnly Zlib.none none 4 (framesRead (serverFormat 4) [[0, 0, 0, 0, 1, 7]])
      (((RequestServer.serverStreaming (.new 4 0 0 [])).start Zlib.none ⟨[], []⟩).1.received
        Zlib.none [[0, 0, 0, 0, 1, 7]]) ∧
    DecodedOnly Zlib.none none 4 (framesRead (serverFormat 4) [[0, 0, 0, 0, 1, 7]])
      ((fourByteServer .bidi).received Zlib.none [[0, 0, 0, 0, 1, 7]]) ∧
    DecodedOnly doublingZlib (some .gzip) defaultMaxRecvSize
      (framesRead (serverFormat defaultMaxRecvSize) compressedChunks)
      (receivedMessage doublingZlib
        ((ClientCallState.new none).attach doublingZlib ⟨200, gzipHeader⟩).1 compressedChunks true
        okTrailers) ∧
    DecodedOnly Zlib.none none defaultMaxRecvSize
      (framesRead (clientFormat defaultMaxRecvSize) [[0, 0, 0, 0, 1, 7]])
      (receivedStream defaultMaxRecvSize ((CallKind.bidi.callState none).attach grpcHead).1
        [[0, 0, 0, 0, 1, 7]] okTrailers) ∧
    DecodedOnly Zlib.none none defaultMaxRecvSize
      (framesRead (clientFormat defaultMaxRecvSize) [[0, 0, 0, 0, 1, 7]])
      (receivedStream defaultMaxRecvSize
        ((CallKind.clientStreaming.callState none).attach grpcHead).1 [[0, 0, 0, 0, 1, 7]]
        okTrailers) := by
  obtain ⟨hunary, _, _, hmessage, _⟩ := compressed_frames_decoded_iff doublingZlib
  obtain ⟨_, hstream, hupload, _, hreader, hwriter⟩ := compressed_frames_decoded_iff Zlib.none
  refine ⟨?_, ?_, ?_, ?_, ?_, ?_⟩
  · exact (hunary 4 1000 0 [] ⟨gzipHeader, []⟩ compressedChunks (by decide)
      (by decide)).2 fun h => absurd h (by decide)
  · refine (hstream 4 0 0 [] ⟨[], []⟩ [[0, 0, 0, 0, 1, 7]] (by decide) (by decide)).2 ?_
    intro f hf hcomp
    obtain rfl := List.mem_singleton.1 hf
    cases hcomp
  · refine (hupload .bidi 4 0 0 [] ⟨[], []⟩ [[0, 0, 0, 0, 1, 7]] (by decide)).2 ?_
    intro f hf hcomp
    obtain rfl := List.mem_singleton.1 hf
    cases hcomp
  · exact (hmessage none ⟨200, gzipHeader⟩ compressedChunks true okTrailers
      (by decide) (by decide)).2 fun h => absurd h (by decide)
  · refine (hreader .bidi none grpcHead defaultMaxRecvSize [[0, 0, 0, 0, 1, 7]]
      okTrailers (by decide) (by decide)).2 ?_
    intro f hf hcomp
    obtain rfl := List.mem_singleton.1 hf
    cases hcomp
  · refine (hwriter none grpcHead defaultMaxRecvSize [[0, 0, 0, 0, 1, 7]] okTrailers
      (by decide)).2 ?_
    intro i f hf hcomp
    obtain rfl := List.mem_singleton.1 (List.mem_of_getElem? hf)
    cases hcomp

/-- **Compressed payloads handed over as they are.** A compressed message without `grpc-encoding` is
not refused by any of the eight receivers. -/
theorem not_compressed_frames_decoded :
    (∀ s ∈ [RequestServer.unary (.new 4 0 0 []), .serverStreaming (.new 4 0 0 [])],
      ((s.start Zlib.none ⟨[], []⟩).1.received Zlib.none compressedChunks).delivered 0 = some [7] ∧
      ¬ DecodedOnly Zlib.none none 4 (framesRead (serverFormat 4) compressedChunks)
        ((s.start Zlib.none ⟨[], []⟩).1.received Zlib.none compressedChunks)) ∧
    (∀ kind, kind = .clientStreaming ∨ kind = .bidi →
      ((fourByteServer kind).received Zlib.none compressedChunks).delivered 0 = some [7] ∧
      ¬ DecodedOnly Zlib.none none 4 (framesRead (serverFormat 4) compressedChunks)
        ((fourByteServer kind).received Zlib.none compressedChunks)) ∧
    (∀ r, r = receivedMessage Zlib.none
          ((ClientCallState.new none).attach Zlib.none grpcHead).1 compressedChunks true
          okTrailers →
      r.delivered 0 = some [7] ∧
      ¬ DecodedOnly Zlib.none none defaultMaxRecvSize
        (framesRead (serverFormat defaultMaxRecvSize) compressedChunks) r) ∧
    ∀ (kind : CallKind) (r : Received), r = receivedStream defaultMaxRecvSize
          ((kind.callState none).attach grpcHead).1 compressedChunks okTrailers →
      r.delivered 0 = some [7] ∧
      ¬ DecodedOnly Zlib.none none defaultMaxRecvSize
        (framesRead (clientFormat defaultMaxRecvSize) compressedChunks) r := by
  have hraw : ∀ {limit : Nat} {fs : List (LengthPrefix.Frame UInt8)} {r : Received},
      fs = [⟨[1, 0, 0, 0, 1], [7]⟩] → r.delivered 0 = some [7] →
        r.delivered 0 = some [7] ∧ ¬ DecodedOnly Zlib.none none limit fs r := by
    rintro limit fs r rfl hdel
    refine ⟨hdel, fun h => ?_⟩
    have hnone := (h 0 _ rfl rfl).1
    rw [hdel] at hnone
    cases hnone
  refine ⟨?_, ?_, ?_, ?_⟩
  · intro s hs
    rcases List.mem_cons.1 hs with rfl | hs
    · exact hraw rfl (by decide)
    · obtain rfl := List.mem_singleton.1 hs
      exact hraw rfl (by decide)
  · rintro kind (rfl | rfl)
    · exact hraw rfl (by decide)
    · exact hraw rfl (by decide)
  · rintro r rfl
    exact hraw rfl (by decide)
  · rintro kind r rfl
    cases kind with
    | serverStreaming => exact hraw rfl (by decide)
    | clientStreaming => exact hraw rfl (by decide)
    | bidi => exact hraw rfl (by decide)

end Rpcpio.Stream
