import Rpcpio.Library.Machine
import Rpcpio.Protocol.UnaryFraming

/-!
# What the frame decoder accepts

A decoder that is new, or was `Reset` after any use, accepts exactly one frame: fed with chunks and
marked at the end of the stream, it is done with the payload and the flag of the bytes if they are
one frame within the limit, still waits for a header if there were none, and is in error otherwise
(`accepts_exactly`). `Kept` is what every use of the decoder leaves; it bounds the payload that is
buffered.
-/

set_option autoImplicit false

namespace Rpcpio.Protocol

open Rpcpio.Library

/-- The bytes are the frame of `p` with the flag, within the limit. -/
def IsFrameOf (m : Nat) (flag : UInt8) (p bytes : Bytes) : Prop :=
  (flag = 0 ∨ flag = 1) ∧ p.length ≤ m ∧ encodeFrame flag p = some bytes

/-- The bytes start with a complete header that has a valid flag and a length over the limit. -/
def OverLimit (m : Nat) (bytes : Bytes) : Prop :=
  5 ≤ bytes.length ∧ (bytes.getD 0 0 = 0 ∨ bytes.getD 0 0 = 1) ∧
    m < headerLength (bytes.take 5)

instance (m : Nat) (bytes : Bytes) : Decidable (OverLimit m bytes) :=
  inferInstanceAs (Decidable (_ ∧ _ ∧ _))

/-! ## Frames -/

/-- The low byte of a number. -/
theorem ofNat_low_byte {n : Nat} {c : UInt8} (h : n % 256 = c.toNat) :
    UInt8.ofNat (n &&& 0xFF) = c := by
  rw [show n &&& 0xFF = n % 256 from Nat.and_two_pow_sub_one_eq_mod n 8, h]
  simp

/-- A header of five bytes is the prefix of its flag and its length. -/
theorem framePrefix_headerLength {header : Bytes} (hlen : header.length = 5) :
    framePrefix (header.getD 0 0) (headerLength header) = header ∧
      headerLength header < 2 ^ 32 := by
  -- the three shifted bytes and the low one are those of the length
  match header, hlen with
  | [b0, b1, b2, b3, b4], _ =>
      have h1 := b1.toNat_lt
      have h2 := b2.toNat_lt
      have h3 := b3.toNat_lt
      have h4 := b4.toNat_lt
      rw [headerLength_eq]
      refine ⟨?_, by omega⟩
      simp only [framePrefix, Nat.shiftRight_eq_div_pow, List.getD_cons_zero]
      rw [ofNat_low_byte (c := b1) (by omega), ofNat_low_byte (c := b2) (by omega),
        ofNat_low_byte (c := b3) (by omega), ofNat_low_byte (c := b4) (by omega)]

/-- The flag and the length that the format accepts. -/
theorem serverFormat_announce_iff {m n : Nat} {header : Bytes} :
    (serverFormat m).announce header = .ok n ↔
      (header.getD 0 0 = 0 ∨ header.getD 0 0 = 1) ∧ headerLength header = n ∧ n ≤ m := by
  simp only [serverFormat]
  split
  · rename_i hflag
    constructor
    · intro h
      cases h
    · rintro ⟨h0 | h1, _⟩
      · exact absurd h0 hflag.1
      · exact absurd h1 hflag.2
  · rename_i hflag
    have hvalid : header.getD 0 0 = 0 ∨ header.getD 0 0 = 1 := by
      by_contra hnot
      exact hflag (not_or.1 hnot)
    split
    · rename_i hlarge
      constructor
      · intro h
        cases h
      · rintro ⟨_, rfl, hle⟩
        omega
    · rename_i hle
      constructor
      · intro h
        cases h
        exact ⟨hvalid, rfl, by omega⟩
      · rintro ⟨_, rfl, _⟩
        rfl

/-- **The frames of the format are those of `EncodeFrame`** with a valid flag, within the limit. -/
theorem scan_frame_iff {m : Nat} {flag : UInt8} {p bytes : Bytes} :
    IsFrameOf m flag p bytes ↔ ∃ f : LengthPrefix.Frame UInt8,
      (serverFormat m).scan (.pending []) bytes = (.pending [], [f]) ∧ f.payload = p ∧
        f.header.getD 0 0 = flag := by
  constructor
  · rintro ⟨hflag, hle, hframe⟩
    have hlen : p.length < 2 ^ 32 := by
      by_contra hlarge
      rw [encodeFrame, if_pos (by omega)] at hframe
      cases hframe
    rw [encodeFrame_eq_some hlen, Option.some.injEq] at hframe
    have hwf : (serverFormat m).WellFormed (messageFrame flag p) :=
      ⟨rfl, serverFormat_announce_iff.2 ⟨hflag, headerLength_framePrefix flag hlen, hle⟩⟩
    exact ⟨messageFrame flag p, hframe ▸ LengthPrefix.scan_symbols hwf, rfl, rfl⟩
  · rintro ⟨f, hscan, rfl, rfl⟩
    -- the format reads a header and its payload, and the header is that of `EncodeFrame`
    have hsound := LengthPrefix.scan_sound (F := serverFormat m) (l := bytes)
      LengthPrefix.unfinished_nil
    rw [hscan] at hsound
    obtain ⟨hcat, _, hwf⟩ := hsound
    obtain ⟨hlen, hann⟩ := hwf f List.mem_cons_self
    obtain ⟨hflag, hheader, hle⟩ := serverFormat_announce_iff.1 hann
    obtain ⟨hhead, hsmall⟩ := framePrefix_headerLength hlen
    refine ⟨hflag, hle, ?_⟩
    have hbytes : bytes = f.header ++ f.payload := by
      simpa [LengthPrefix.Frame.symbols] using hcat
    rw [encodeFrame_eq_some (by omega), hbytes, ← hheader, hhead]

/-- The limit is exceeded exactly by a header over the limit. -/
theorem exceeds_iff {m : Nat} {bytes : Bytes} :
    FrameDecoder.Exceeds ((serverFormat m).scan (.pending []) bytes) ↔ OverLimit m bytes := by
  have hflag : 5 ≤ bytes.length → (bytes.take 5).getD 0 0 = bytes.getD 0 0 := by
    intro hlen
    simp [List.getD]
  constructor
  · rintro ⟨e, hscan, hcode⟩
    have hsound := LengthPrefix.scan_sound (F := serverFormat m) (l := bytes)
      LengthPrefix.unfinished_nil
    rw [hscan] at hsound
    obtain ⟨rest, hcat, hlen, hann, _⟩ := hsound
    have hrest : bytes = rest := by simpa using hcat
    subst hrest
    have hlen5 : 5 ≤ bytes.length := hlen
    simp only [serverFormat] at hann
    -- of the two errors only the limit has this code
    split at hann
    · cases hann
      cases hcode
    · rename_i hvalid
      split at hann
      · rename_i hlarge
        refine ⟨hlen5, ?_, hlarge⟩
        rw [hflag hlen5] at hvalid
        by_contra hnot
        exact hvalid (not_or.1 hnot)
      · cases hann
  · rintro ⟨hlen, hvalid, hlarge⟩
    refine ⟨Status.of .resourceExhausted (text "message length exceeds limit"), ?_, rfl⟩
    have hann : (serverFormat m).announce (bytes.take (serverFormat m).headerSize) =
        .error (Status.of .resourceExhausted (text "message length exceeds limit")) := by
      have hnot : ¬ ((bytes.take 5).getD 0 0 ≠ 0 ∧ (bytes.take 5).getD 0 0 ≠ 1) := by
        rw [hflag hlen]
        rintro ⟨h0, h1⟩
        exact hvalid.elim h0 h1
      exact (if_neg hnot).trans (if_pos hlarge)
    have hnone : ∀ f ∈ ([] : List (LengthPrefix.Frame UInt8)), (serverFormat m).WellFormed f := by
      intro f hf
      cases hf
    exact LengthPrefix.scan_rejected_header hnone hlen hann

namespace FrameDecoder

/-! ## The uses of a decoder -/

/-- The member functions that change a decoder. -/
inductive Use where
  | feed (chunk : Bytes)
  | markEos
  | takePayload
  | reset
  deriving DecidableEq, Repr

/-- The decoder after a use. -/
def apply (d : FrameDecoder) : Use → FrameDecoder
  | .feed chunk => d.feed chunk
  | .markEos => d.markEos
  | .takePayload => d.takePayload.2
  | .reset => d.reset

/-- The uses in any order. -/
def machine : Machine FrameDecoder Use := ⟨fun d e => some (d.apply e)⟩

/-- A decoder that is ready for a message: new, or `Reset` after any uses. -/
def Ready (m : Nat) (d : FrameDecoder) : Prop :=
  d = new m ∨ ∃ used, machine.Reaches (new m) used ∧ d = used.reset

/-- What every use leaves: the limit, room for a header, less payload than announced, and never more
than the limit. -/
structure Kept (m : Nat) (d : FrameDecoder) : Prop where
  limit : d.maxMessageSize = m
  buffer : d.headerBuf.length = 5
  header : d.state = .awaitingHeader → d.headerBytes < 5
  payload : d.state = .awaitingPayload → d.payload.length < d.payloadLen ∧ d.payloadLen ≤ m
  bounded : d.payload.length ≤ m

theorem kept_new (m : Nat) : Kept m (new m) :=
  ⟨rfl, rfl, fun _ => Nat.zero_lt_succ 4, (by intro h; cases h), Nat.zero_le _⟩

theorem Kept.setError {m : Nat} {d : FrameDecoder} (h : Kept m d) (msg : Bytes) :
    Kept m (d.setError msg) :=
  ⟨h.limit, h.buffer, (by intro hs; cases hs), (by intro hs; cases hs), h.bounded⟩

/-- A complete header is accepted within the limit. -/
theorem Kept.tryParseHeader {m : Nat} {d : FrameDecoder} (hm : d.maxMessageSize = m)
    (hbuf : d.headerBuf.length = 5) (hstate : d.state = .awaitingHeader)
    (hbound : d.payload.length ≤ m) :
    Kept m d.tryParseHeader := by
  simp only [FrameDecoder.tryParseHeader]
  split
  · rename_i hshort
    refine ⟨hm, hbuf, fun _ => hshort, fun hs => ?_, hbound⟩
    rw [hstate] at hs
    cases hs
  -- flag, then limit, then a length of zero, in the order of the source
  · split
    · exact ⟨hm, hbuf, (by intro hs; cases hs), (by intro hs; cases hs), hbound⟩
    · split
      · exact ⟨hm, hbuf, (by intro hs; cases hs), (by intro hs; cases hs), hbound⟩
      · rename_i hlimit
        split
        · exact ⟨hm, hbuf, (by intro hs; cases hs), (by intro hs; cases hs), Nat.zero_le _⟩
        · rename_i hpos
          refine ⟨hm, hbuf, (by intro hs; cases hs), fun _ => ?_, Nat.zero_le _⟩
          exact ⟨Nat.pos_of_ne_zero hpos, hm ▸ Nat.not_lt.1 hlimit⟩

/-- One iteration keeps the invariant. -/
theorem Kept.feedIter {m : Nat} {d : FrameDecoder} (h : Kept m d) (chunk : Bytes) :
    Kept m (d.feedIter chunk).1 := by
  simp only [FrameDecoder.feedIter]
  cases hstate : d.state with
  | awaitingHeader =>
      have hn := h.header hstate
      have hneed : sizeSub kLpmHeaderSize d.headerBytes = 5 - d.headerBytes :=
        sizeSub_of_le (by show d.headerBytes ≤ 5; omega)
      simp only [hneed]
      have hcpy := (memcpy_spec d.headerBuf
        (chunk.take (min (5 - d.headerBytes) chunk.length)) d.headerBytes (by
          rw [List.length_take, h.buffer]
          omega)).1
      exact Kept.tryParseHeader h.limit (hcpy.trans h.buffer) rfl h.bounded
  | awaitingPayload =>
      obtain ⟨hlt, hle⟩ := h.payload hstate
      have hneed : sizeSub d.payloadLen d.payload.length = d.payloadLen - d.payload.length :=
        sizeSub_of_le (by omega)
      simp only [hneed]
      have hgrown : (d.payload ++ chunk.take (min (d.payloadLen - d.payload.length)
          chunk.length)).length ≤ d.payloadLen := by
        rw [List.length_append, List.length_take]
        omega
      generalize d.payload ++ chunk.take (min (d.payloadLen - d.payload.length) chunk.length) =
        payload at hgrown
      split
      · have hdone : Kept m { d with payload := payload, hasMessage := true, state := .done } :=
          ⟨h.limit, h.buffer, (by intro hs; cases hs), (by intro hs; cases hs), hgrown.trans hle⟩
        -- bytes behind the payload are an error, with the payload kept
        split
        · exact hdone
        · exact hdone.setError _
      · rename_i hfull
        refine ⟨h.limit, h.buffer, (by intro hs; cases hs), fun _ => ?_, hgrown.trans hle⟩
        exact ⟨Nat.lt_of_le_of_ne hgrown hfull, hle⟩
  | done => exact h.setError _
  | error => exact h

/-- **Any number of iterations** of the loop of `Feed` keeps the invariant. -/
theorem Kept.feedLoop {m : Nat} : ∀ (n : Nat) {d : FrameDecoder} (_ : Kept m d) (chunk : Bytes),
    Kept m (d.feedLoop n chunk)
  | 0, _, h, _ => h
  | n + 1, d, h, chunk => by
      have hiter := h.feedIter chunk
      simp only [FrameDecoder.feedLoop]
      split
      · exact h
      · split
        · rename_i hret
          rw [hret] at hiter
          exact hiter
        · rename_i hret
          rw [hret] at hiter
          exact Kept.feedLoop n hiter _

/-- **Every use keeps the invariant.** -/
theorem Kept.apply {m : Nat} {d : FrameDecoder} (h : Kept m d) (e : Use) : Kept m (d.apply e) := by
  cases e with
  | feed chunk =>
      simp only [FrameDecoder.apply, FrameDecoder.feed]
      split
      · exact h
      · exact h.feedLoop _ chunk
  | markEos =>
      simp only [FrameDecoder.apply, FrameDecoder.markEos]
      split
      · exact h
      · split
        · exact h
        · exact h.setError _
  | takePayload =>
      -- the payload is moved out, and less of it is there than before
      refine ⟨h.limit, h.buffer, h.header, fun hs => ?_, Nat.zero_le _⟩
      obtain ⟨hlt, hle⟩ := h.payload hs
      exact ⟨Nat.lt_of_le_of_lt (Nat.zero_le _) hlt, hle⟩
  | reset =>
      exact ⟨h.limit, h.buffer, fun _ => Nat.zero_lt_succ 4, (by intro hs; cases hs), Nat.zero_le _⟩

theorem kept_of_reaches {m : Nat} {d : FrameDecoder} (h : machine.Reaches (new m) d) : Kept m d :=
  Machine.Reaches.invariant (M := machine) (I := Kept m)
    (fun _ _ _ hs hstep => Option.some.inj hstep ▸ hs.apply _) h (kept_new m)

/-- A ready decoder has read nothing. -/
theorem Ready.reads {m : Nat} {d : FrameDecoder} (h : Ready m d) : ReadsLimit m [] d := by
  rcases h with rfl | ⟨used, hused, rfl⟩
  · exact readsLimit_new m
  · have hkept := kept_of_reaches hused
    refine ⟨⟨hkept.limit, Or.inl ⟨rfl, ?_⟩⟩, iff_of_false (by simp [reset]) ?_⟩
    · exact Holds.header (n := 0) hkept.buffer (by decide)
    · rintro ⟨e, ho, _⟩
      cases ho

/-! ## The end of the stream -/

@[simp] theorem markEos_limitExceeded (d : FrameDecoder) :
    d.markEos.limitExceeded = d.limitExceeded := by
  simp only [markEos]
  split
  · rfl
  · split <;> rfl

/-- A decoder that is not done at the end of the stream has seen no byte, or ends in error. -/
theorem markEos_state {d : FrameDecoder} (h : d.state ≠ .done) :
    d.markEos.state =
      if d.state = .awaitingHeader ∧ d.headerBytes = 0 then .awaitingHeader else .error := by
  simp only [markEos]
  by_cases herr : d.state = .error
  · rw [if_pos (Or.inl herr), if_neg (by simp [herr]), herr]
  · rw [if_neg (by simp [herr, h])]
    split
    · rename_i hnone
      exact hnone.1
    · rfl

/-- **What a decoder says at the end of the stream**: nothing came, one frame, or an error. -/
theorem markEos_cases {m : Nat} {d : FrameDecoder} {bytes : Bytes}
    (h : Reads m ((serverFormat m).scan (.pending []) bytes) d) :
    (bytes = [] ∧ d.markEos.state = .awaitingHeader) ∨
      (∃ f, (serverFormat m).scan (.pending []) bytes = (.pending [], [f]) ∧
        d.markEos.state = .done ∧ d.markEos.payload = f.payload ∧
          d.markEos.compressFlag = f.header.getD 0 0) ∨
      (bytes ≠ [] ∧ (∀ f, (serverFormat m).scan (.pending []) bytes ≠ (.pending [], [f])) ∧
        d.markEos.state = .error) := by
  -- an error is neither a part of a frame nor one frame
  by_cases herr : d.state = .error
  · right
    right
    have hnot : ¬ ((∃ rest, (serverFormat m).scan (.pending []) bytes = (.pending rest, [])) ∨
        ∃ g, (serverFormat m).scan (.pending []) bytes = (.pending [], [g])) :=
      fun hok => h.state_ne_error hok herr
    obtain ⟨hpart, hone⟩ := not_or.1 hnot
    refine ⟨?_, fun f hf => hone ⟨f, hf⟩, ?_⟩
    · rintro rfl
      exact hpart ⟨[], rfl⟩
    · rw [markEos_state (by simp [herr]), if_neg (by simp [herr])]
  · rcases h.cases herr with ⟨got, hscan⟩ | ⟨f, hscan, hdone⟩
    · -- the bytes are part of a frame
      have hsound := LengthPrefix.scan_sound (F := serverFormat m) (l := bytes)
        LengthPrefix.unfinished_nil
      rw [hscan] at h hsound
      have hbytes : bytes = got := by simpa using hsound.1
      subst hbytes
      have hpart : ∀ f, (serverFormat m).scan (.pending []) bytes ≠ (.pending [], [f]) := by
        intro f hf
        rw [hscan] at hf
        cases hf
      obtain ⟨_, ⟨hstate, hholds⟩ | ⟨hstate, _, hholds⟩⟩ := h
      · rw [markEos_state (by simp [hstate])]
        generalize hn : d.headerBytes = n at hholds
        cases hholds with
        | header hlen hlt =>
            -- no byte of the header is the only end of the stream that is not an error
            by_cases hzero : n = 0
            · subst hzero
              rw [if_pos ⟨hstate, rfl⟩]
              exact Or.inl ⟨rfl, rfl⟩
            · rw [if_neg (fun hnone => hzero hnone.2)]
              refine Or.inr (Or.inr ⟨?_, hpart, rfl⟩)
              intro hnil
              have hlength := congrArg List.length hnil
              rw [List.length_take, List.length_nil] at hlength
              omega
      -- a header was read, so bytes have come
      · rw [markEos_state (by simp [hstate]), if_neg (by simp [hstate])]
        cases hholds with
        | payload hlen hann hlt =>
            refine Or.inr (Or.inr ⟨?_, hpart, rfl⟩)
            intro hnil
            have hlength := congrArg List.length hnil
            rw [List.length_append, List.length_nil] at hlength
            omega
    · rw [hscan] at h
      have hsame := markEos_of_final (d := d) (Or.inr (by simp [isDone, hdone]))
      rw [hsame]
      exact Or.inr (Or.inl ⟨f, hscan, h.2⟩)

/-! ## Errors -/

/-- An error stays, with its text and its kind, until `Reset`. -/
theorem apply_of_error {d : FrameDecoder} (h : d.isError = true) {e : Use} (he : e ≠ .reset) :
    (d.apply e).isError = true ∧ (d.apply e).errorMessage = d.errorMessage ∧
      (d.apply e).limitExceeded = d.limitExceeded := by
  cases e with
  | feed chunk =>
      rw [apply, feed_of_error h]
      exact ⟨h, rfl, rfl⟩
  | markEos =>
      rw [apply, markEos_of_final (Or.inl h)]
      exact ⟨h, rfl, rfl⟩
  | takePayload => exact ⟨h, rfl, rfl⟩
  | reset => exact absurd rfl he

/-- Errors are sticky along every run without `Reset`. -/
theorem run_of_error {d d' : FrameDecoder} {es : List Use} (h : d.isError = true)
    (hes : .reset ∉ es) (hrun : machine.run d es = some d') :
    d'.isError = true ∧ d'.errorMessage = d.errorMessage ∧ d'.limitExceeded = d.limitExceeded := by
  -- on the uses: none of them is a `Reset`, so the error stays
  induction es generalizing d with
  | nil =>
      cases hrun
      exact ⟨h, rfl, rfl⟩
  | cons e es ih =>
      obtain ⟨c, hc, hrest⟩ := Machine.run_cons_some.1 hrun
      obtain rfl := Option.some.inj hc
      obtain ⟨hne, hnot⟩ := not_or.1 (fun hmem => hes (List.mem_cons.2 hmem))
      obtain ⟨herr, hmsg, hlim⟩ := apply_of_error h (fun heq => hne heq.symm)
      obtain ⟨herr', hmsg', hlim'⟩ := ih herr hnot hrest
      exact ⟨herr', hmsg'.trans hmsg, hlim'.trans hlim⟩

/-! ## Exactly one frame -/

/-- **A ready decoder accepts exactly one frame, whatever the chunks.** It is done exactly with the
payload and the flag of the bytes, waits for a header exactly if there are none, is in error
otherwise, and exceeded the limit exactly for a header over the limit. In every use, errors are
sticky until `Reset`, and at every iteration the buffered payload is within the limit. -/
theorem accepts_exactly {m : Nat} {d : FrameDecoder} (hready : Ready m d) (chunks : List Bytes) :
    (∀ p flag, ((chunks.foldl feed d).markEos.isDone = true ∧
        (chunks.foldl feed d).markEos.payload = p ∧
        (chunks.foldl feed d).markEos.compressFlag = flag) ↔ IsFrameOf m flag p chunks.flatten) ∧
    ((chunks.foldl feed d).markEos.state = .awaitingHeader ↔ chunks.flatten = []) ∧
    ((chunks.foldl feed d).markEos.isError = true ↔
      chunks.flatten ≠ [] ∧ ∀ p flag, ¬ IsFrameOf m flag p chunks.flatten) ∧
    ((chunks.foldl feed d).markEos.limitExceeded = true ↔ OverLimit m chunks.flatten) ∧
    (∀ used, machine.Reaches (new m) used →
      (used.isError = true → ∀ es used', .reset ∉ es → machine.run used es = some used' →
        used'.isError = true ∧ used'.errorMessage = used.errorMessage ∧
          used'.limitExceeded = used.limitExceeded) ∧
      used.payload.length ≤ m ∧ ∀ chunk n, (used.feedLoop n chunk).payload.length ≤ m) := by
  have hreads := hready.reads.chunks chunks
  rw [List.nil_append] at hreads
  have hcases := markEos_cases hreads.reads
  generalize hf : chunks.foldl feed d = fed at hreads hcases
  refine ⟨fun p flag => ?_, ?_, ?_, ?_, fun used hused => ⟨fun herr es used' hes hrun => ?_, ?_,
    fun chunk n => ?_⟩⟩
  -- done: only the second case is one frame
  · rw [scan_frame_iff]
    rcases hcases with ⟨hnil, hstate⟩ | ⟨f, hscan, hstate, hpayload, hflag⟩ | ⟨_, hnot, hstate⟩
    · refine iff_of_false (fun hdone => ?_) ?_
      · simp [isDone, hstate] at hdone
      · rintro ⟨f, hscan, _⟩
        rw [hnil] at hscan
        cases hscan
    · simp only [isDone, hstate, hpayload, hflag, decide_true, true_and, hscan]
      constructor
      · rintro ⟨rfl, rfl⟩
        exact ⟨f, rfl, rfl, rfl⟩
      · rintro ⟨g, hg, rfl, rfl⟩
        cases hg
        exact ⟨rfl, rfl⟩
    · refine iff_of_false (fun hdone => ?_) ?_
      · simp [isDone, hstate] at hdone
      · rintro ⟨f, hscan, _⟩
        exact hnot f hscan
  -- waiting for a header: only the first case has no bytes
  · rcases hcases with ⟨hnil, hstate⟩ | ⟨f, hscan, hstate, _⟩ | ⟨hne, _, hstate⟩
    · exact iff_of_true hstate hnil
    · apply iff_of_false (by simp [hstate])
      intro hnil
      rw [hnil] at hscan
      cases hscan
    · exact iff_of_false (by simp [hstate]) hne
  -- in error: the bytes are neither none nor one frame
  · have hframe : ∀ f, (serverFormat m).scan (.pending []) chunks.flatten = (.pending [], [f]) →
        ¬ ∀ p flag, ¬ IsFrameOf m flag p chunks.flatten := fun f hscan hnone =>
      hnone _ _ (scan_frame_iff.2 ⟨f, hscan, rfl, rfl⟩)
    rcases hcases with ⟨hnil, hstate⟩ | ⟨f, hscan, hstate, _⟩ | ⟨hne, hnot, hstate⟩
    · exact iff_of_false (by simp [isError, hstate]) fun h => h.1 hnil
    · exact iff_of_false (by simp [isError, hstate]) fun h => hframe f hscan h.2
    · refine iff_of_true (by simp [isError, hstate]) ⟨hne, fun p flag hone => ?_⟩
      obtain ⟨f, hscan, _⟩ := scan_frame_iff.1 hone
      exact hnot f hscan
  · rw [markEos_limitExceeded, hreads.limit, exceeds_iff]
  · exact run_of_error herr hes hrun
  · exact (kept_of_reaches hused).bounded
  · exact ((kept_of_reaches hused).feedLoop n chunk).bounded

/-- A decoder that was in error, lost its payload and was `Reset` takes a message in two chunks. -/
theorem accepts_exactly_example :
    let used := ((new 4).feed [2, 0, 0, 0, 0]).takePayload.2
    let fed := [[0, 0, 0], [0, 1, 7]].foldl feed used.reset
    Ready 4 used.reset ∧ fed.markEos.isDone = true ∧ fed.markEos.payload = [7] ∧
      fed.markEos.compressFlag = 0 := by
  intro used fed
  have hready : Ready 4 used.reset := Or.inr ⟨used, ⟨[.feed [2, 0, 0, 0, 0], .takePayload], rfl⟩,
    rfl⟩
  have haccepts := (accepts_exactly hready [[0, 0, 0], [0, 1, 7]]).1 [7] 0
  exact ⟨hready, haccepts.2 ⟨Or.inl rfl, by decide, rfl⟩⟩

end FrameDecoder

end Rpcpio.Protocol
