import Rpcpio.Protocol.StreamGrammar
import Rpcpio.Stream.Receivers

/-!
# The stream decoders of client and server

The data closures of the streaming client calls read the compression flag of a header and ignore it.
On the same bytes they agree with the server's `StreamingFrameParser` exactly if the server finds no
reserved flag (`decodersAgree_iff`); a stream that the server rejects for a flag is read on by the
client.
-/

set_option autoImplicit false

namespace Rpcpio.Stream

open Rpcpio.Library Rpcpio.Protocol Rpcpio.Client Rpcpio.Server

/-- The payloads that the data closures of chunks hand over, up to the failure of the call. -/
def extracted (m : Nat) : StreamingCallState → List Bytes → List Bytes
  | _, [] => []
  -- `closed_` is tested first, and the messages before an error are handed over
  | c, chunk :: chunks =>
      (if c.closed then [] else (c.lpm.feed m chunk).messages) ++
        extracted m (c.onData m chunk).1 chunks

/-- The verdict of the data closures: the code of the status they failed the call with. -/
def verdict (posted : List IocTask) : StatusCode :=
  match posted with
  | .failed s :: _ => s.code
  | _ => .ok

/-- The client call and the server's parser read the chunks alike: the same payloads, which reach
the handles of the call, and the same verdict. -/
structure DecodersAgree (m : Nat) (c : StreamingCallState) (chunks : List Bytes) : Prop where
  payloads : extracted m c chunks = ((StreamingFrameParser.new m).feedAll chunks).messages
  handles : (receiveData m c chunks).1.reader =
      (((StreamingFrameParser.new m).feedAll chunks).messages.foldl
        StreamingCallState.deliver c).reader ∧
    (receiveData m c chunks).1.writer =
      (((StreamingFrameParser.new m).feedAll chunks).messages.foldl
        StreamingCallState.deliver c).writer
  verdicts : verdict (receiveData m c chunks).2 =
    ((StreamingFrameParser.new m).feedAll chunks).status.code

/-! ## The two formats -/

/-- A header that the server accepts is one that the client accepts. -/
theorem announce_client {m n : Nat} {header : Bytes}
    (h : (serverFormat m).announce header = .ok n) :
    (clientFormat m).announce header = .ok n := by
  simp only [serverFormat, clientFormat] at h ⊢
  -- the client makes only the second of the server's two tests
  split at h
  · cases h
  · split at h
    · cases h
    · rename_i hle
      rw [if_neg hle]
      exact h

/-- A frame of the server's format is one of the client's. -/
theorem wellFormed_client {m : Nat} {f : LengthPrefix.Frame UInt8}
    (h : (serverFormat m).WellFormed f) : (clientFormat m).WellFormed f :=
  ⟨h.1, announce_client h.2⟩

theorem unfinished_client {m : Nat} {got : Bytes} (h : (serverFormat m).Unfinished got) :
    (clientFormat m).Unfinished got := by
  rcases h with hshort | ⟨n, hann, hlt⟩
  · exact Or.inl hshort
  · exact Or.inr ⟨n, announce_client hann, hlt⟩

/-- **Without a reserved flag the client reads what the server reads.** -/
theorem scan_client {m : Nat} {bytes : Bytes}
    (hflags : ∀ k, ¬ InvalidHeaderAt m bytes k .invalidArgument) :
    match (serverFormat m).scan (.pending []) bytes with
    | (.pending got, fs) => (clientFormat m).scan (.pending []) bytes = (.pending got, fs)
    | (.rejected e, fs) => e.code = .resourceExhausted ∧
        ∃ e', (clientFormat m).scan (.pending []) bytes = (.rejected e', fs) := by
  have hsound := LengthPrefix.scan_sound (F := serverFormat m) (l := bytes)
    LengthPrefix.unfinished_nil
  cases hscan : (serverFormat m).scan (.pending []) bytes with
  | mk state fs =>
      rw [hscan, List.nil_append] at hsound
      cases state with
      -- the same frames and the same unfinished rest
      | pending got =>
          obtain ⟨hcat, hgot, hfs⟩ := hsound
          dsimp only
          rw [hcat, LengthPrefix.scan_append,
            LengthPrefix.scan_flatten fun f hf => wellFormed_client (hfs f hf),
            LengthPrefix.scan_unfinished (unfinished_client hgot), List.append_nil]
      | rejected e =>
          obtain ⟨rest, hcat, hlen, hann, hfs⟩ := hsound
          have hrejected := LengthPrefix.rejectedAt_iff.2 ⟨fs, hscan, rfl⟩
          simp only [serverFormat] at hann
          split at hann
          · -- a reserved flag
            cases hann
            exact absurd (invalidHeaderAt_iff.2 ⟨_, rfl, hrejected⟩) (hflags _)
          -- a length over the limit, which the client rejects too
          · split at hann
            · rename_i hlarge
              cases hann
              refine ⟨rfl, Status.of .resourceExhausted (text "received message too large"), ?_⟩
              rw [hcat]
              exact LengthPrefix.scan_rejected_header
                (fun f hf => wellFormed_client (hfs f hf)) hlen (if_pos hlarge)
            · cases hann

/-! ## The data closures -/

/-- A call that failed extracts nothing. -/
theorem extracted_closed {m : Nat} {c : StreamingCallState} (hc : c.closed = true)
    (chunks : List Bytes) : extracted m c chunks = [] := by
  -- on the chunks: a closed call stays as it is
  induction chunks with
  | nil => rfl
  | cons chunk chunks ih =>
      have hsame : (c.onData m chunk).1 = c := by
        simp only [StreamingCallState.onData]
        rw [if_pos hc]
      rw [extracted, hsame, ih, if_pos hc, List.append_nil]

/-- **The payloads extracted are those of the frames of the client's format.** -/
theorem extracted_eq {m : Nat} {c : StreamingCallState} {got : Bytes} (hc : c.closed = false)
    (hrep : LpmReader.Represents m c.lpm got) (chunks : List Bytes) :
    extracted m c chunks = payloadsOf ((clientFormat m).scan (.pending got) chunks.flatten).2 := by
  -- on the chunks, for any bytes of an unfinished frame
  induction chunks generalizing c got with
  | nil => rfl
  | cons chunk chunks ih =>
      obtain ⟨hmsgs, hout⟩ := LpmReader.feed_agrees hrep chunk
      rw [List.flatten_cons, LengthPrefix.scan_append, extracted, if_neg (by simp [hc]), hmsgs]
      obtain ⟨hclosed, hlpm⟩ := foldl_deliver_flags { c with lpm := (c.lpm.feed m chunk).parser }
        (c.lpm.feed m chunk).messages
      cases hchunk : ((clientFormat m).scan (.pending got) chunk).1 with
      | pending rest =>
          rw [hchunk] at hout
          have hnext : (c.onData m chunk).1.closed = false ∧
              LpmReader.Represents m (c.onData m chunk).1.lpm rest := by
            simp only [StreamingCallState.onData]
            rw [if_neg (by simp [hc]), hout.2, if_pos Status.isOk_okStatus]
            exact ⟨hclosed.trans hc, hlpm ▸ hout.1⟩
          rw [ih hnext.1 hnext.2, payloadsOf, payloadsOf, List.map_append]
      -- the call fails, and its later closures extract nothing
      | rejected e =>
          rw [hchunk] at hout
          have hfailed : (c.onData m chunk).1.closed = true := by
            simp only [StreamingCallState.onData]
            rw [if_neg (by simp [hc]), hout.1, hout.2, if_neg Bool.false_ne_true]
            simp only [StreamingCallState.fail]
            rw [if_neg (by rw [hclosed]; simp [hc])]
          rw [extracted_closed hfailed, LengthPrefix.scan_rejected, List.append_nil,
            List.append_nil, payloadsOf]

/-- **The decoders agree exactly if the server finds no reserved flag.** For every kind of streaming
call, every limit, every byte string and every chunking. -/
theorem decodersAgree_iff (kind : CallKind) (ctx : Option ClientContext) (m : Nat)
    (chunks : List Bytes) :
    DecodersAgree m (kind.callState ctx) chunks ↔
      ∀ k, ¬ InvalidHeaderAt m chunks.flatten k .invalidArgument := by
  have hnew : (kind.callState ctx).closed = false ∧ (kind.callState ctx).lpm = LpmReader.new := by
    cases kind <;> exact ⟨rfl, rfl⟩
  obtain ⟨hc, hl⟩ := hnew
  generalize kind.callState ctx = c at hc hl
  have hread := hasRead_receiveData (m := m) hc hl chunks
  have hpayloads := extracted_eq (m := m) hc (hl ▸ LpmReader.new_represents m) chunks
  obtain ⟨hmsgs, _⟩ := StreamingFrameParser.feedAll_agrees
    (StreamingFrameParser.new_represents m) chunks
  have hstatus := StreamingFrameParser.feedAll_status m chunks
  constructor
  · rintro ⟨_, _, hverdict⟩ k hbad
    -- the client never answers with this code
    rw [StreamingFrameParser.feedAll_code hbad] at hverdict
    have hstate := hread.state
    cases hscan : (clientFormat m).scan (.pending []) chunks.flatten with
    | mk state fs =>
        rw [hscan] at hstate
        cases state with
        -- a call that goes on says `OK`
        | pending got =>
            rw [hstate.2.2] at hverdict
            cases hverdict
        -- a call that fails says that the message is too large
        | rejected e =>
            rw [hstate.2.1] at hverdict
            have hcode := scan_client_code hscan
            simp only [verdict] at hverdict
            rw [hcode] at hverdict
            cases hverdict
  -- both formats read the same frames, and reject at the same header
  · intro hflags
    have hclient := scan_client hflags
    have hframes : ((clientFormat m).scan (.pending []) chunks.flatten).2 =
        ((serverFormat m).scan (.pending []) chunks.flatten).2 := by
      cases hscan : (serverFormat m).scan (.pending []) chunks.flatten with
      | mk state fs =>
          rw [hscan] at hclient
          cases state with
          | pending got => rw [hclient]
          | rejected e =>
              obtain ⟨_, e', he'⟩ := hclient
              rw [he']
    refine ⟨?_, ?_, ?_⟩
    · rw [hpayloads, hmsgs, hframes, payloadsOf]
    · rw [hmsgs, ← hframes]
      exact ⟨hread.reader, hread.writer⟩
    · have hstate := hread.state
      cases hscan : (serverFormat m).scan (.pending []) chunks.flatten with
      | mk state fs =>
          rw [hscan] at hclient hstatus
          cases state with
          | pending got =>
              rw [hclient] at hstate
              rw [hstate.2.2, hstatus.1]
              rfl
          | rejected e =>
              obtain ⟨hcode, e', he'⟩ := hclient
              rw [he'] at hstate
              rw [hstate.2.1, hstatus.1, hcode]
              exact scan_client_code he'

/-- The frame of an empty message with the reserved flag 2. -/
def reservedFrame : Bytes := [2, 0, 0, 0, 0]

/-- **The client accepts what the server rejects**: a frame with a reserved flag is a message to a
client-streaming call. -/
theorem not_decodersAgree :
    ¬ ∀ (kind : CallKind) (ctx : Option ClientContext) (m : Nat) (chunks : List Bytes),
      DecodersAgree m (kind.callState ctx) chunks := by
  intro h
  have hverdict := (h .clientStreaming none 4194304 [reservedFrame]).verdicts
  exact absurd hverdict (by decide)

end Rpcpio.Stream
