import Rpcpio.Protocol.StreamParsing

/-!
# The single message of a unary call

`FrameDecoder` accepts one frame of the server's format and nothing behind it. `Reads` relates the
decoder to what the format reads in the same bytes; `ReadsLimit.chunks` says that it depends on the
bytes only, not on how they are cut.
-/

set_option autoImplicit false

namespace Rpcpio.Protocol

open Rpcpio.Library

namespace FrameDecoder

/-- What the decoder has read: part of a frame, one frame, or something that is not one frame. -/
def Reads (m : Nat) (o : LengthPrefix.Scan UInt8 Status × List (LengthPrefix.Frame UInt8))
    (d : FrameDecoder) : Prop :=
  d.maxMessageSize = m ∧
    match o with
    | (.pending got, []) =>
        (d.state = .awaitingHeader ∧
          Holds (serverFormat m) d.headerBuf d.payloadLen d.payload false d.headerBytes got) ∨
        (d.state = .awaitingPayload ∧ d.compressFlag = d.headerBuf.getD 0 0 ∧
          Holds (serverFormat m) d.headerBuf d.payloadLen d.payload true 5 got)
    | (.pending [], [f]) =>
        d.state = .done ∧ d.payload = f.payload ∧ d.compressFlag = f.header.getD 0 0
    | _ => d.state = .error

theorem reads_new (m : Nat) : Reads m (.pending [], []) (new m) :=
  ⟨rfl, Or.inl ⟨rfl, Holds.header (n := 0) rfl (by decide)⟩⟩

section

variable {m : Nat} {d : FrameDecoder} {got chunk : Bytes} {f : LengthPrefix.Frame UInt8}

/-- What is neither part of a frame nor one frame is an error. -/
theorem reads_of_error {o : LengthPrefix.Scan UInt8 Status × List (LengthPrefix.Frame UInt8)}
    (hm : d.maxMessageSize = m) (herr : d.state = .error) (hpart : ∀ got, o ≠ (.pending got, []))
    (hone : ∀ f, o ≠ (.pending [], [f])) : Reads m o d := by
  refine ⟨hm, ?_⟩
  split
  · rename_i got
    exact absurd rfl (hpart got)
  · rename_i f
    exact absurd rfl (hone f)
  · exact herr

/-- Bytes behind a complete frame are not part of a unary message. -/
theorem reads_behind (hm : d.maxMessageSize = m) (herr : d.state = .error) (hne : chunk ≠ []) :
    Reads m (((serverFormat m).scan (.pending []) chunk).1,
      f :: ((serverFormat m).scan (.pending []) chunk).2) d := by
  apply reads_of_error hm herr
  · intro got hg
    exact List.cons_ne_nil _ _ (Prod.mk.inj hg).2
  · intro g hg
    have hsound := LengthPrefix.scan_sound (F := serverFormat m) (l := chunk)
      LengthPrefix.unfinished_nil
    obtain ⟨hstate, hframes⟩ := Prod.mk.inj hg
    rw [show (serverFormat m).scan (.pending []) chunk = (.pending [], []) from
      Prod.ext hstate (List.cons.inj hframes).2] at hsound
    exact hne (by simpa using hsound.1)

/-- The decision on a complete header. -/
theorem reads_tryParseHeader (hm : d.maxMessageSize = m)
    (hlen : d.headerBuf.length = 5) (h5 : d.headerBytes = 5) :
    Reads m ((serverFormat m).settle d.headerBuf) d.tryParseHeader := by
  rw [settle_header (F := serverFormat m) rfl hlen]
  subst hm
  simp only [tryParseHeader]
  rw [if_neg (by rw [h5]; decide)]
  by_cases hflag : d.headerBuf.getD 0 0 ≠ 0 ∧ d.headerBuf.getD 0 0 ≠ 1
  · have ha : (serverFormat d.maxMessageSize).announce d.headerBuf =
        .error (Status.of .invalidArgument (text "invalid LPM compression flag")) := if_pos hflag
    rw [ha]
    simp only [if_pos hflag]
    exact ⟨rfl, rfl⟩
  · by_cases hmax : d.maxMessageSize < headerLength d.headerBuf
    · have ha : (serverFormat d.maxMessageSize).announce d.headerBuf =
          .error (Status.of .resourceExhausted (text "message length exceeds limit")) :=
        (if_neg hflag).trans (if_pos hmax)
      rw [ha]
      simp only [if_neg hflag, if_pos hmax]
      exact ⟨rfl, rfl⟩
    · have ha : (serverFormat d.maxMessageSize).announce d.headerBuf =
          .ok (headerLength d.headerBuf) := (if_neg hflag).trans (if_neg hmax)
      rw [ha]
      simp only [if_neg hflag, if_neg hmax]
      cases hn : headerLength d.headerBuf with
      | zero => exact ⟨rfl, rfl, rfl, rfl⟩
      | succ n =>
          refine ⟨rfl, Or.inr ⟨rfl, rfl, ?_⟩⟩
          rw [hn] at ha
          have h : Holds (serverFormat d.maxMessageSize) d.headerBuf (n + 1) [] true 5
              (d.headerBuf ++ []) := Holds.payload hlen ha (Nat.succ_pos n)
          simpa using h

/-- A decoder that reads a frame that stays unfinished, or completes one, has no error. -/
theorem Reads.state_ne_error {o : LengthPrefix.Scan UInt8 Status × List (LengthPrefix.Frame UInt8)}
    (h : Reads m o d) (ho : (∃ rest, o = (.pending rest, [])) ∨ ∃ g, o = (.pending [], [g])) :
    d.state ≠ .error := by
  obtain ⟨_, h⟩ := h
  rcases ho with ⟨rest, rfl⟩ | ⟨g, rfl⟩
  · rcases h with ⟨hs, _⟩ | ⟨hs, _⟩ <;> simp [hs]
  · simp [h.1]

/-- What an iteration on a nonempty chunk does: it fails on the whole of it, or reads a block. -/
def IterReads (m : Nat) (got chunk : Bytes) (r : FrameDecoder × Bytes × Bool) : Prop :=
  (r.2.2 = true ∧ Reads m ((serverFormat m).scan (.pending got) chunk) r.1) ∨
    ∃ k, 0 < k ∧ r.2 = (chunk.drop k, false) ∧
      Reads m ((serverFormat m).scan (.pending got) (chunk.take k)) r.1 ∧ r.1.state ≠ .error

/-- The block that the header branch reads. -/
theorem feedIter_headerBlock (hstate : d.state = .awaitingHeader) (hn : d.headerBytes < 5) :
    d.feedIter chunk =
      let take := min (5 - d.headerBytes) chunk.length
      let r := tryParseHeader { d with
        headerBuf := memcpy d.headerBuf d.headerBytes (chunk.take take)
        headerBytes := d.headerBytes + take }
      (r, chunk.drop take, r.isError) := by
  have hneed : sizeSub kLpmHeaderSize d.headerBytes = 5 - d.headerBytes :=
    sizeSub_of_le (by show d.headerBytes ≤ 5; omega)
  rw [← hneed]
  simp only [feedIter]
  rw [hstate]

/-- The header branch. -/
theorem feedIter_header (hm : d.maxMessageSize = m) (hstate : d.state = .awaitingHeader)
    (hlen : d.headerBuf.length = 5) (hn : d.headerBytes < 5) (hne : chunk ≠ []) :
    IterReads m (d.headerBuf.take d.headerBytes) chunk (d.feedIter chunk) := by
  obtain ⟨hk0, hkle, hkne⟩ := take_block (5 - d.headerBytes) chunk (by omega) hne
  rw [feedIter_headerBlock hstate hn]
  have htake : (chunk.take (min (5 - d.headerBytes) chunk.length)).length =
      min (5 - d.headerBytes) chunk.length := by
    rw [List.length_take]
    omega
  simp only
  generalize min (5 - d.headerBytes) chunk.length = k at hk0 hkle hkne htake
  have hcpy := (memcpy_spec d.headerBuf (chunk.take k) d.headerBytes (by omega)).1
  obtain ⟨hsettle, hpart⟩ := scan_headerBlock (F := serverFormat m) (n := d.headerBytes) rfl hlen
    hkne (by omega)
  by_cases h5 : d.headerBytes + k = 5
  · have hr := reads_tryParseHeader (d := { d with
      headerBuf := memcpy d.headerBuf d.headerBytes (chunk.take k)
      headerBytes := d.headerBytes + k }) hm (hcpy.trans hlen) h5
    have hall : (memcpy d.headerBuf d.headerBytes (chunk.take k)).take 5 =
        memcpy d.headerBuf d.headerBytes (chunk.take k) := List.take_of_length_le (by omega)
    rw [htake, h5, hall] at hsettle
    have hblock := settle_header (F := serverFormat m) rfl (hcpy.trans hlen)
    cases ha : (serverFormat m).announce
        (memcpy d.headerBuf d.headerBytes (chunk.take k)) with
    | error e =>
        -- the header is rejected, and the loop returns
        rw [ha] at hblock
        have hwhole : (serverFormat m).scan (.pending (d.headerBuf.take d.headerBytes)) chunk =
            (.rejected e, []) := by
          rw [LengthPrefix.scan_take_drop _ chunk k, hsettle, hblock, LengthPrefix.scan_rejected]
          rfl
        rw [hblock] at hr
        refine Or.inl ⟨?_, ?_⟩
        · simp only [isError, hr.2, decide_true]
        · rw [hwhole]
          exact hr
    | ok n =>
        have hne' := hr.state_ne_error (by
          simp only [hblock, ha]
          cases n with
          | zero => exact Or.inr ⟨_, rfl⟩
          | succ n => exact Or.inl ⟨_, rfl⟩)
        refine Or.inr ⟨k, hk0, by simp [isError, hne'], ?_, hne'⟩
        rw [hsettle]
        exact hr
  · have hlt : d.headerBytes + (chunk.take k).length < 5 := by omega
    have hparse : tryParseHeader { d with
        headerBuf := memcpy d.headerBuf d.headerBytes (chunk.take k)
        headerBytes := d.headerBytes + k } = { d with
        headerBuf := memcpy d.headerBuf d.headerBytes (chunk.take k)
        headerBytes := d.headerBytes + k } := by
      simp only [tryParseHeader]
      exact if_pos (show d.headerBytes + k < 5 by omega)
    have hne' : d.state ≠ .error := by simp [hstate]
    rw [hparse]
    refine Or.inr ⟨k, hk0, by simp [isError, hne'], ?_, hne'⟩
    rw [hpart hlt, htake]
    exact ⟨hm, Or.inl ⟨hstate, .header (hcpy.trans hlen) (show d.headerBytes + k < 5 by omega)⟩⟩

/-- The payload branch. -/
theorem feedIter_payload (hm : d.maxMessageSize = m) (hstate : d.state = .awaitingPayload)
    (hflag : d.compressFlag = d.headerBuf.getD 0 0) (hlen : d.headerBuf.length = 5)
    (ha : (serverFormat m).announce d.headerBuf = .ok d.payloadLen)
    (hlt : d.payload.length < d.payloadLen) (hne : chunk ≠ []) :
    IterReads m (d.headerBuf ++ d.payload) chunk (d.feedIter chunk) := by
  have hneed : sizeSub d.payloadLen d.payload.length = d.payloadLen - d.payload.length :=
    sizeSub_of_le (by omega)
  obtain ⟨hk0, hkle, hkne⟩ := take_block (d.payloadLen - d.payload.length) chunk (by omega) hne
  have hwhole := LengthPrefix.scan_take_drop (F := serverFormat m)
    (.pending (d.headerBuf ++ d.payload)) chunk
    (min (d.payloadLen - d.payload.length) chunk.length)
  simp only [feedIter]
  rw [hstate]
  simp only [hneed]
  generalize min (d.payloadLen - d.payload.length) chunk.length = k at hk0 hkle hkne hwhole
  have hle : (d.payload ++ chunk.take k).length ≤ d.payloadLen := by
    rw [List.length_append]
    omega
  have hblock := scan_payloadBlock (F := serverFormat m) rfl hlen ha hkne hle
  by_cases hfull : (d.payload ++ chunk.take k).length = d.payloadLen
  · rw [if_pos hfull] at hblock
    simp only [if_pos hfull]
    by_cases hrest : chunk.drop k = []
    · -- the chunk ends with the message
      simp only [hrest, List.isEmpty_nil, if_true]
      refine Or.inr ⟨k, hk0, by rw [hrest], ?_, by simp⟩
      rw [hblock]
      exact ⟨hm, rfl, rfl, hflag⟩
    · rw [if_neg (by simpa using hrest)]
      refine Or.inl ⟨rfl, ?_⟩
      rw [hwhole, hblock]
      exact reads_behind hm rfl hrest
  · rw [if_neg hfull] at hblock
    simp only [if_neg hfull]
    refine Or.inr ⟨k, hk0, rfl, ?_, by simp⟩
    rw [hblock]
    exact ⟨hm, Or.inr ⟨rfl, hflag, .payload hlen ha (Nat.lt_of_le_of_ne hle hfull)⟩⟩

/-- **One iteration reads a block of the chunk**, or fails on the whole of it. -/
theorem feedIter_reads (h : Reads m (.pending got, []) d) (hne : chunk ≠ []) :
    IterReads m got chunk (d.feedIter chunk) := by
  obtain ⟨hm, ⟨hstate, hholds⟩ | ⟨hstate, hflag, hholds⟩⟩ := h
  · generalize hhb : d.headerBytes = n at hholds
    cases hholds with
    | header hlen hn =>
        subst hhb
        exact feedIter_header hm hstate hlen hn hne
  · cases hholds with
    | payload hlen ha hlt => exact feedIter_payload hm hstate hflag hlen ha hlt hne

end

/-- What was read so far, and then a chunk. -/
def readOn (m : Nat) (o : LengthPrefix.Scan UInt8 Status × List (LengthPrefix.Frame UInt8))
    (chunk : Bytes) : LengthPrefix.Scan UInt8 Status × List (LengthPrefix.Frame UInt8) :=
  (((serverFormat m).scan o.1 chunk).1, o.2 ++ ((serverFormat m).scan o.1 chunk).2)

@[simp] theorem readOn_nil (m : Nat)
    (o : LengthPrefix.Scan UInt8 Status × List (LengthPrefix.Frame UInt8)) :
    readOn m o [] = o := by
  simp [readOn]

theorem readOn_append (m : Nat)
    (o : LengthPrefix.Scan UInt8 Status × List (LengthPrefix.Frame UInt8)) (xs ys : Bytes) :
    readOn m (readOn m o xs) ys = readOn m o (xs ++ ys) := by
  simp only [readOn, LengthPrefix.scan_append, List.append_assoc]

/-- A decoder without an error has read part of a frame, or one frame. -/
theorem Reads.cases {m : Nat} {d : FrameDecoder}
    {o : LengthPrefix.Scan UInt8 Status × List (LengthPrefix.Frame UInt8)} (h : Reads m o d)
    (hne : d.state ≠ .error) :
    (∃ got, o = (.pending got, [])) ∨ ∃ f, o = (.pending [], [f]) ∧ d.state = .done := by
  obtain ⟨state, fs⟩ := o
  obtain ⟨_, h⟩ := h
  cases state with
  | rejected e => exact absurd h hne
  | pending got =>
      cases fs with
      | nil => exact Or.inl ⟨got, rfl⟩
      | cons f fs =>
          cases got with
          | cons b got => cases fs <;> exact absurd h hne
          | nil =>
              cases fs with
              | cons g fs => exact absurd h hne
              | nil => exact Or.inr ⟨f, rfl, h.1⟩

/-- The loop reads the chunk. -/
theorem reads_feedLoop {m : Nat} : ∀ (fuel : Nat) (d : FrameDecoder)
    (o : LengthPrefix.Scan UInt8 Status × List (LengthPrefix.Frame UInt8)) (chunk : Bytes),
    Reads m o d → d.state ≠ .error → chunk.length ≤ fuel →
      Reads m (readOn m o chunk) (feedLoop fuel d chunk)
  | 0, d, o, chunk, h, _, hfuel => by
      have hnil : chunk = [] := List.length_eq_zero_iff.1 (Nat.le_zero.1 hfuel)
      rw [hnil, readOn_nil]
      exact h
  | fuel + 1, d, o, chunk, h, hstate, hfuel => by
      by_cases hne : chunk = []
      · rw [hne, readOn_nil]
        exact h
      · have hemp : chunk.isEmpty = false := by simpa using hne
        simp only [feedLoop]
        simp only [hemp, Bool.false_eq_true, if_false]
        rcases h.cases hstate with ⟨got, rfl⟩ | ⟨f, rfl, hdone⟩
        · have hread : ∀ xs, readOn m (.pending got, []) xs =
              (serverFormat m).scan (.pending got) xs := by
            intro xs
            simp [readOn]
          -- the loop returns with the verdict on the whole chunk, or goes on behind `k` bytes
          rcases feedIter_reads h hne with ⟨hret, hreads⟩ | ⟨k, hk0, hrest, hreads, hok⟩
          · rw [hread]
            split
            · rename_i hiter
              rw [hiter] at hreads
              exact hreads
            · rename_i hiter
              rw [hiter] at hret
              cases hret
          · split
            · rename_i hiter
              rw [hiter] at hrest
              cases hrest
            · rename_i d' chunk' hiter
              rw [hiter] at hrest hreads hok
              obtain rfl := (Prod.mk.inj hrest).1
              have hlen : (chunk.drop k).length ≤ fuel := by
                have hpos : 0 < chunk.length := List.length_pos_iff.2 hne
                rw [List.length_drop]
                omega
              have hnext := reads_feedLoop fuel d' _ (chunk.drop k) hreads hok hlen
              rwa [← hread, readOn_append, List.take_append_drop] at hnext
        · -- nothing may follow the message
          have hiter : d.feedIter chunk =
              (d.setError (text "unexpected second message in unary call"), chunk, true) := by
            simp only [feedIter]
            rw [hdone]
          rw [hiter]
          exact reads_behind (d := d.setError (text "unexpected second message in unary call")) h.1
            rfl hne

/-- An error is final: more bytes do not make one frame of what is none. -/
theorem Reads.error_stays {m : Nat} {d : FrameDecoder} {bytes : Bytes}
    (h : Reads m ((serverFormat m).scan (.pending []) bytes) d) (herr : d.state = .error)
    (chunk : Bytes) : Reads m ((serverFormat m).scan (.pending []) (bytes ++ chunk)) d := by
  have hsound := LengthPrefix.scan_sound (F := serverFormat m) (l := bytes)
    LengthPrefix.unfinished_nil
  have hwhole := LengthPrefix.scan_sound (F := serverFormat m) (l := bytes ++ chunk)
    LengthPrefix.unfinished_nil
  rw [LengthPrefix.scan_append] at hwhole ⊢
  cases hscan : (serverFormat m).scan (.pending []) bytes with
  | mk state fs =>
      rw [hscan] at h hsound hwhole
      cases state with
      | rejected e =>
          rw [LengthPrefix.scan_rejected]
          exact ⟨h.1, herr⟩
      | pending got =>
          dsimp only at hsound hwhole ⊢
          apply reads_of_error h.1 herr
          · intro rest ho
            obtain ⟨_, hframes⟩ := Prod.mk.inj ho
            obtain ⟨rfl, _⟩ := List.append_eq_nil_iff.1 hframes
            exact h.state_ne_error (Or.inl ⟨got, rfl⟩) herr
          · intro f ho
            obtain ⟨hstate, hframes⟩ := Prod.mk.inj ho
            rw [hstate, hframes] at hwhole
            cases fs with
            | nil => exact h.state_ne_error (Or.inl ⟨got, rfl⟩) herr
            | cons g fs =>
                -- the whole is the one frame `g`, so its part was not in error
                obtain ⟨rfl, hnil⟩ := List.cons.inj hframes
                obtain ⟨rfl, _⟩ := List.append_eq_nil_iff.1 hnil
                have hgot : got = [] := by
                  have hcat := hwhole.1
                  rw [List.nil_append] at hcat
                  rw [show bytes = _ from hsound.1] at hcat
                  simp at hcat
                  exact hcat.1
                subst hgot
                exact h.state_ne_error (Or.inr ⟨g, rfl⟩) herr

/-- **A chunk is read in the server's format.** -/
theorem reads_feed {m : Nat} {d : FrameDecoder} {bytes : Bytes}
    (h : Reads m ((serverFormat m).scan (.pending []) bytes) d) (chunk : Bytes) :
    Reads m ((serverFormat m).scan (.pending []) (bytes ++ chunk)) (d.feed chunk) := by
  simp only [feed]
  by_cases herr : d.state = .error
  · rw [if_pos (by simp [isError, herr])]
    exact h.error_stays herr chunk
  · rw [if_neg (by simp [isError, herr]), LengthPrefix.scan_append]
    exact reads_feedLoop _ d _ chunk h herr (by omega)

/-- A decoder with an error ignores what comes. -/
theorem feed_of_error {d : FrameDecoder} (h : d.isError = true) (chunk : Bytes) :
    d.feed chunk = d := if_pos h

/-! ## The limit -/

/-- Nothing but a header over the limit was read. -/
def Exceeds (o : LengthPrefix.Scan UInt8 Status × List (LengthPrefix.Frame UInt8)) : Prop :=
  ∃ e, o = (.rejected e, []) ∧ e.code = .resourceExhausted

theorem not_exceeds_cons {s : LengthPrefix.Scan UInt8 Status} {f : LengthPrefix.Frame UInt8}
    {fs : List (LengthPrefix.Frame UInt8)} : ¬ Exceeds (s, f :: fs) := by
  rintro ⟨e, ho, _⟩
  cases ho

/-- A complete header exceeds the limit exactly if the format rejects it with that code. -/
theorem limit_tryParseHeader {m : Nat} {d : FrameDecoder} (hm : d.maxMessageSize = m)
    (h5 : d.headerBytes = 5) (hl : d.limitExceeded = false) :
    d.tryParseHeader.limitExceeded = true ↔
      ∃ e, (serverFormat m).announce d.headerBuf = .error e ∧ e.code = .resourceExhausted := by
  subst hm
  simp only [tryParseHeader, serverFormat]
  rw [if_neg (by rw [h5]; decide)]
  split
  · simp [setError, hl, Status.of]
  · split
    · simp [setError, Status.of]
    · split <;> simp [hl]

/-- What an iteration says of the limit: a loop that goes on has not exceeded it, and one that
returns has exactly if the format rejects a header for it. -/
def SaysLimit (m : Nat) (got chunk : Bytes) (r : FrameDecoder × Bytes × Bool) : Prop :=
  (r.2.2 = false → r.1.limitExceeded = false) ∧
    (r.2.2 = true → (r.1.limitExceeded = true ↔
      Exceeds ((serverFormat m).scan (.pending got) chunk)))

/-- An iteration that reads bytes of the header. -/
theorem limit_header {m : Nat} {d : FrameDecoder} {chunk : Bytes} (hm : d.maxMessageSize = m)
    (hstate : d.state = .awaitingHeader) (hlen : d.headerBuf.length = 5) (hn : d.headerBytes < 5)
    (hne : chunk ≠ []) (hl : d.limitExceeded = false) :
    SaysLimit m (d.headerBuf.take d.headerBytes) chunk (d.feedIter chunk) := by
  obtain ⟨hk0, hkle, hkne⟩ := take_block (5 - d.headerBytes) chunk (by omega) hne
  rw [feedIter_headerBlock hstate hn]
  have htake : (chunk.take (min (5 - d.headerBytes) chunk.length)).length =
      min (5 - d.headerBytes) chunk.length := by
    rw [List.length_take]
    omega
  dsimp only [SaysLimit]
  generalize min (5 - d.headerBytes) chunk.length = k at hk0 hkle hkne htake
  have hbuf : (memcpy d.headerBuf d.headerBytes (chunk.take k)).length = 5 :=
    (memcpy_spec d.headerBuf (chunk.take k) d.headerBytes (by omega)).1.trans hlen
  by_cases h5 : d.headerBytes + k < 5
  · -- part of a header decides nothing
    have hnoerr : d.state ≠ .error := by simp [hstate]
    rw [tryParseHeader, if_pos (show d.headerBytes + k < kLpmHeaderSize from h5)]
    exact ⟨fun _ => hl, fun hret => absurd hret (by simp [isError, hnoerr])⟩
  · have hfive : d.headerBytes + k = 5 := by omega
    have hlimit := limit_tryParseHeader (d := { d with
      headerBuf := memcpy d.headerBuf d.headerBytes (chunk.take k)
      headerBytes := d.headerBytes + k }) hm hfive hl
    have hr := reads_tryParseHeader (d := { d with
      headerBuf := memcpy d.headerBuf d.headerBytes (chunk.take k)
      headerBytes := d.headerBytes + k }) hm hbuf hfive
    have hsettle := (scan_headerBlock (F := serverFormat m) (n := d.headerBytes) rfl hlen
      hkne (by omega)).1
    rw [htake, hfive, List.take_of_length_le (Nat.le_of_eq hbuf), settle_header rfl hbuf]
      at hsettle
    rw [settle_header rfl hbuf] at hr
    -- the header is complete: its verdict is that of the format
    cases ha : (serverFormat m).announce (memcpy d.headerBuf d.headerBytes (chunk.take k)) with
    | error e =>
        rw [ha] at hr hsettle
        have hwhole := LengthPrefix.scan_take_drop (F := serverFormat m)
          (.pending (d.headerBuf.take d.headerBytes)) chunk k
        rw [hsettle, LengthPrefix.scan_rejected] at hwhole
        constructor
        · intro hret
          exact absurd hret (by simp [isError, hr.2])
        · intro _
          rw [hlimit, ha, hwhole]
          simp [Exceeds]
    | ok n =>
        have hnoerr := hr.state_ne_error (by
          simp only [ha]
          cases n with
          | zero => exact Or.inr ⟨_, rfl⟩
          | succ n => exact Or.inl ⟨_, rfl⟩)
        constructor
        · intro _
          rw [Bool.eq_false_iff, ne_eq, hlimit, ha]
          simp
        · intro hret
          exact absurd hret (by simp [isError, hnoerr])

/-- An iteration that reads bytes of the payload leaves the limit alone, and returns only behind a
frame. -/
theorem limit_payload {m : Nat} {d : FrameDecoder} {chunk : Bytes}
    (hstate : d.state = .awaitingPayload) (hlen : d.headerBuf.length = 5)
    (ha : (serverFormat m).announce d.headerBuf = .ok d.payloadLen)
    (hlt : d.payload.length < d.payloadLen) (hne : chunk ≠ []) (hl : d.limitExceeded = false) :
    SaysLimit m (d.headerBuf ++ d.payload) chunk (d.feedIter chunk) := by
  have hneed : sizeSub d.payloadLen d.payload.length = d.payloadLen - d.payload.length :=
    sizeSub_of_le (by omega)
  obtain ⟨hk0, hkle, hkne⟩ := take_block (d.payloadLen - d.payload.length) chunk (by omega) hne
  have hwhole := LengthPrefix.scan_take_drop (F := serverFormat m)
    (.pending (d.headerBuf ++ d.payload)) chunk
    (min (d.payloadLen - d.payload.length) chunk.length)
  simp only [SaysLimit, feedIter]
  rw [hstate]
  simp only [hneed]
  generalize min (d.payloadLen - d.payload.length) chunk.length = k at hkle hkne hwhole
  have hle : (d.payload ++ chunk.take k).length ≤ d.payloadLen := by
    rw [List.length_append]
    omega
  have hblock := scan_payloadBlock (F := serverFormat m) rfl hlen ha hkne hle
  by_cases hfull : (d.payload ++ chunk.take k).length = d.payloadLen
  · rw [if_pos hfull] at hblock
    simp only [if_pos hfull]
    split
    · exact ⟨fun _ => hl, (by intro hret; cases hret)⟩
    · refine ⟨(by intro hret; cases hret), fun _ => ?_⟩
      rw [hwhole, hblock]
      simp only [setError, hl, Bool.false_eq_true, false_iff]
      exact not_exceeds_cons
  · simp only [if_neg hfull]
    exact ⟨fun _ => hl, (by intro hret; cases hret)⟩

/-- An iteration exceeds the limit exactly if the format rejects the header for it, and then the
loop returns. -/
theorem limit_feedIter {m : Nat} {d : FrameDecoder} {got chunk : Bytes}
    (hreads : Reads m (.pending got, []) d) (hne : chunk ≠ []) (hl : d.limitExceeded = false) :
    SaysLimit m got chunk (d.feedIter chunk) := by
  obtain ⟨hm, ⟨hstate, hholds⟩ | ⟨hstate, _, hholds⟩⟩ := hreads
  · generalize hhb : d.headerBytes = n at hholds
    cases hholds with
    | header hlen hn =>
        subst hhb
        exact limit_header hm hstate hlen hn hne hl
  · cases hholds with
    | payload hlen ha hlt => exact limit_payload hstate hlen ha hlt hne hl

/-- The loop exceeds the limit exactly if the format rejects the first header for it. -/
theorem limit_feedLoop {m : Nat} : ∀ (fuel : Nat) (d : FrameDecoder)
    (o : LengthPrefix.Scan UInt8 Status × List (LengthPrefix.Frame UInt8)) (chunk : Bytes),
    Reads m o d → d.state ≠ .error → d.limitExceeded = false → chunk.length ≤ fuel →
      ((feedLoop fuel d chunk).limitExceeded = true ↔ Exceeds (readOn m o chunk))
  | 0, d, o, chunk, hreads, hstate, hl, hfuel => by
      have hnil : chunk = [] := List.length_eq_zero_iff.1 (Nat.le_zero.1 hfuel)
      rw [hnil, readOn_nil]
      apply iff_of_false (by simp [feedLoop, hl])
      rintro ⟨e, rfl, _⟩
      exact hstate hreads.2
  | fuel + 1, d, o, chunk, hreads, hstate, hl, hfuel => by
      by_cases hne : chunk = []
      · rw [hne, readOn_nil]
        apply iff_of_false (by simp [feedLoop, hl])
        rintro ⟨e, rfl, _⟩
        exact hstate hreads.2
      · have hemp : chunk.isEmpty = false := by simpa using hne
        simp only [feedLoop]
        simp only [hemp, Bool.false_eq_true, if_false]
        rcases hreads.cases hstate with ⟨got, rfl⟩ | ⟨f, rfl, hdone⟩
        · have hread : ∀ xs, readOn m (.pending got, []) xs =
              (serverFormat m).scan (.pending got) xs := by
            intro xs
            simp [readOn]
          -- an iteration that goes on leaves the limit alone; one that returns has decided
          obtain ⟨hgoes, hreturns⟩ := limit_feedIter hreads hne hl
          split
          · rename_i hiter
            rw [hiter] at hreturns
            rw [hread]
            exact hreturns rfl
          · rename_i d' chunk' hiter
            rw [hiter] at hgoes
            rcases feedIter_reads hreads hne with ⟨hret, _⟩ | ⟨k, hk0, hrest, hnext, hok⟩
            · rw [hiter] at hret
              cases hret
            · rw [hiter] at hrest hnext hok
              obtain rfl := (Prod.mk.inj hrest).1
              have hlen : (chunk.drop k).length ≤ fuel := by
                have hpos : 0 < chunk.length := List.length_pos_iff.2 hne
                rw [List.length_drop]
                omega
              have hih := limit_feedLoop fuel d' _ (chunk.drop k) hnext hok (hgoes rfl) hlen
              rwa [← hread, readOn_append, List.take_append_drop] at hih
        · have hiter : d.feedIter chunk =
              (d.setError (text "unexpected second message in unary call"), chunk, true) := by
            simp only [feedIter]
            rw [hdone]
          rw [hiter]
          exact iff_of_false (by simp [setError, hl]) not_exceeds_cons

/-- Reading on does not change whether the limit was exceeded, once there is an error. -/
theorem Reads.exceeds_readOn {m : Nat} {d : FrameDecoder}
    {o : LengthPrefix.Scan UInt8 Status × List (LengthPrefix.Frame UInt8)} (h : Reads m o d)
    (herr : d.state = .error) (chunk : Bytes) : Exceeds (readOn m o chunk) ↔ Exceeds o := by
  obtain ⟨state, fs⟩ := o
  cases state with
  | rejected e => simp [readOn]
  | pending got =>
      cases fs with
      | nil => exact absurd herr (h.state_ne_error (Or.inl ⟨got, rfl⟩))
      | cons f fs => exact iff_of_false not_exceeds_cons not_exceeds_cons

/-- What a decoder has read, with the limit. -/
structure ReadsLimit (m : Nat) (bytes : Bytes) (d : FrameDecoder) : Prop where
  reads : Reads m ((serverFormat m).scan (.pending []) bytes) d
  limit : d.limitExceeded = true ↔ Exceeds ((serverFormat m).scan (.pending []) bytes)

theorem ReadsLimit.feed {m : Nat} {d : FrameDecoder} {bytes : Bytes} (h : ReadsLimit m bytes d)
    (chunk : Bytes) : ReadsLimit m (bytes ++ chunk) (d.feed chunk) := by
  refine ⟨reads_feed h.reads chunk, ?_⟩
  have hread : (serverFormat m).scan (.pending []) (bytes ++ chunk) =
      readOn m ((serverFormat m).scan (.pending []) bytes) chunk := LengthPrefix.scan_append _ _ _
  rw [hread]
  by_cases herr : d.state = .error
  · rw [h.reads.exceeds_readOn herr, FrameDecoder.feed, if_pos (by simp [isError, herr])]
    exact h.limit
  · have hl : d.limitExceeded = false := by
      rw [Bool.eq_false_iff, ne_eq, h.limit]
      rintro ⟨e, ho, _⟩
      have hreads := h.reads
      rw [ho] at hreads
      exact herr hreads.2
    rw [FrameDecoder.feed, if_neg (by simp [isError, herr])]
    exact limit_feedLoop _ d _ chunk h.reads herr hl (by omega)

/-- **The decoder does not depend on how the bytes are cut**, its limit included. -/
theorem ReadsLimit.chunks {m : Nat} {d : FrameDecoder} {bytes : Bytes} (h : ReadsLimit m bytes d)
    (chunks : List Bytes) :
    ReadsLimit m (bytes ++ chunks.flatten) (chunks.foldl FrameDecoder.feed d) := by
  induction chunks generalizing bytes d with
  | nil => simpa using h
  | cons chunk chunks ih =>
      have hnext := ih (h.feed chunk)
      rwa [List.flatten_cons, ← List.append_assoc]

theorem readsLimit_new (m : Nat) : ReadsLimit m [] (new m) := by
  refine ⟨reads_new m, iff_of_false (by simp [new]) ?_⟩
  rintro ⟨e, ho, _⟩
  cases ho

theorem reads_chunks (m : Nat) (chunks : List Bytes) :
    Reads m ((serverFormat m).scan (.pending []) chunks.flatten) (chunks.foldl feed (new m)) :=
  ((readsLimit_new m).chunks chunks).reads

/-- **A decoder that has read a frame did not exceed the limit.** -/
theorem limit_chunks (m : Nat) (chunks : List Bytes)
    (h : (chunks.foldl feed (new m)).limitExceeded = true) :
    ((serverFormat m).scan (.pending []) chunks.flatten).2 = [] := by
  obtain ⟨e, ho, _⟩ := ((readsLimit_new m).chunks chunks).limit.1 h
  exact congrArg Prod.snd ho

/-! ## Whole messages -/

theorem foldl_feed_of_error {d : FrameDecoder} (h : d.isError = true) (chunks : List Bytes) :
    chunks.foldl feed d = d := by
  induction chunks with
  | nil => rfl
  | cons c cs ih => rw [List.foldl_cons, feed_of_error h, ih]

/-- A prefix of a frame is no error, and the whole frame is the message. -/
theorem reads_frame {m : Nat} {f : LengthPrefix.Frame UInt8} (hf : (serverFormat m).WellFormed f)
    {bytes t : Bytes} (h : bytes ++ t = f.symbols) {d : FrameDecoder}
    (hd : Reads m ((serverFormat m).scan (.pending []) bytes) d) :
    d.isError = false ∧ (t = [] → d.state = .done ∧ d.payload = f.payload ∧
      d.compressFlag = f.header.getD 0 0) := by
  by_cases hrest : t = []
  · rw [hrest, List.append_nil] at h
    rw [h, LengthPrefix.scan_symbols hf] at hd
    exact ⟨by simp [isError, hd.2.1], fun _ => hd.2⟩
  · have hlt : bytes.length < f.symbols.length := by
      have hpos := List.length_pos_iff.2 hrest
      rw [← h, List.length_append]
      omega
    have hun := LengthPrefix.unfinished_of_wellFormed hf hlt
    rw [← h, List.take_left] at hun
    rw [LengthPrefix.scan_unfinished hun] at hd
    have hne := hd.state_ne_error (Or.inl ⟨bytes, rfl⟩)
    exact ⟨by simp [isError, hne], fun hnil => absurd hnil hrest⟩

/-- The end of the stream changes no decoder that has a message or an error. -/
theorem markEos_of_final {d : FrameDecoder} (h : d.isError = true ∨ d.isDone = true) :
    d.markEos = d := by
  apply if_pos
  rcases h with h | h
  · exact Or.inl (by simpa [isError] using h)
  · exact Or.inr (by simpa [isDone] using h)

/-- It makes none of the others done. -/
theorem isDone_markEos (d : FrameDecoder) : d.markEos.isDone = d.isDone := by
  simp only [markEos]
  split
  · rfl
  · rename_i hfinal
    split
    · rfl
    · have hdone : d.state ≠ .done := fun h => hfinal (Or.inr h)
      simp [isDone, setError, hdone]

end FrameDecoder

end Rpcpio.Protocol
