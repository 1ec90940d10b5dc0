import Rpcpio.Library.LengthPrefix
import Rpcpio.Protocol.Status

/-!
# Length-prefixed messages

`encodeFrame` writes the five-byte prefix and the payload. `FrameDecoder` accepts the single message
of a unary call from arbitrary chunks. Its `Feed` loop is modelled one iteration at a time
(`FrameDecoder.feedIter`).

`headerLength_framePrefix` says that the length field is read back, so that the frames of
`encodeFrame` are well-formed frames of any format that reads the length from bytes 1 to 4.
-/

set_option autoImplicit false

namespace Rpcpio.Protocol

open Rpcpio.Library

/-- `kLpmHeaderSize`. -/
def kLpmHeaderSize : Nat := 5

/-- The five-byte prefix of a message. -/
def framePrefix (compressFlag : UInt8) (len : Nat) : Bytes :=
  [compressFlag, UInt8.ofNat ((len >>> 24) &&& 0xFF), UInt8.ofNat ((len >>> 16) &&& 0xFF),
    UInt8.ofNat ((len >>> 8) &&& 0xFF), UInt8.ofNat (len &&& 0xFF)]

/-- `EncodeFrame`; `none` models the result `false`, which leaves the output unchanged. -/
def encodeFrame (compressFlag : UInt8) (payload : Bytes) : Option Bytes :=
  if 2 ^ 32 - 1 < payload.length then none
  else some (framePrefix compressFlag payload.length ++ payload)

/-- The big-endian length in bytes 1 to 4 of a header buffer. -/
def headerLength (header : Bytes) : Nat :=
  ((header.getD 1 0).toNat <<< 24) ||| ((header.getD 2 0).toNat <<< 16) |||
    ((header.getD 3 0).toNat <<< 8) ||| (header.getD 4 0).toNat

/-- `FrameDecoder::State`. -/
inductive DecoderState where
  | awaitingHeader
  | awaitingPayload
  | done
  | error
  deriving DecidableEq, Repr

/-- `FrameDecoder`. -/
structure FrameDecoder where
  state : DecoderState
  maxMessageSize : Nat
  hasMessage : Bool
  limitExceeded : Bool
  headerBuf : Bytes
  headerBytes : Nat
  compressFlag : UInt8
  payloadLen : Nat
  payload : Bytes
  errorMessage : Bytes
  deriving DecidableEq, Repr

namespace FrameDecoder

/-- The constructor. -/
def new (maxMessageSize : Nat) : FrameDecoder where
  state := .awaitingHeader
  maxMessageSize := maxMessageSize
  hasMessage := false
  limitExceeded := false
  headerBuf := List.replicate 5 0
  headerBytes := 0
  compressFlag := 0
  payloadLen := 0
  payload := []
  errorMessage := []

/-- `done`. -/
def isDone (d : FrameDecoder) : Bool := d.state = .done

/-- `error`. -/
def isError (d : FrameDecoder) : Bool := d.state = .error

/-- `SetError`. -/
def setError (d : FrameDecoder) (msg : Bytes) : FrameDecoder :=
  { d with state := .error, errorMessage := msg }

/-- `TryParseHeader`. -/
def tryParseHeader (d : FrameDecoder) : FrameDecoder :=
  if d.headerBytes < kLpmHeaderSize then d
  else
    let d := { d with compressFlag := d.headerBuf.getD 0 0 }
    if d.compressFlag ≠ 0 ∧ d.compressFlag ≠ 1 then
      d.setError (text "reserved compression flag: " ++ decimal d.compressFlag.toNat)
    else
      let d := { d with payloadLen := headerLength d.headerBuf }
      if d.maxMessageSize < d.payloadLen then
        { d with limitExceeded := true }.setError
          (text "message length " ++ decimal d.payloadLen ++ text " exceeds limit " ++
            decimal d.maxMessageSize)
      else
        let d := { d with payload := [] }
        if d.payloadLen = 0 then { d with hasMessage := true, state := .done }
        else { d with state := .awaitingPayload }

/-- One iteration of the loop of `Feed` on a nonempty chunk: the decoder, the rest of the chunk,
and whether the loop returns. -/
def feedIter (d : FrameDecoder) (chunk : Bytes) : FrameDecoder × Bytes × Bool :=
  match d.state with
  | .awaitingHeader =>
      let take := min (sizeSub kLpmHeaderSize d.headerBytes) chunk.length
      let d := { d with
        headerBuf := memcpy d.headerBuf d.headerBytes (chunk.take take)
        headerBytes := d.headerBytes + take }
      let d := d.tryParseHeader
      (d, chunk.drop take, d.isError)
  | .awaitingPayload =>
      let take := min (sizeSub d.payloadLen d.payload.length) chunk.length
      let d := { d with payload := d.payload ++ chunk.take take }
      let chunk := chunk.drop take
      if d.payload.length = d.payloadLen then
        let d := { d with hasMessage := true, state := .done }
        if chunk.isEmpty then (d, chunk, false)
        else (d.setError (text "unexpected bytes after single unary message"), chunk, true)
      else (d, chunk, false)
  | .done => (d.setError (text "unexpected second message in unary call"), chunk, true)
  | .error => (d, chunk, true)

/-- The loop of `Feed`, for a number of iterations that suffices. -/
def feedLoop : Nat → FrameDecoder → Bytes → FrameDecoder
  | 0, d, _ => d
  | fuel + 1, d, chunk =>
      if chunk.isEmpty then d
      else
        match d.feedIter chunk with
        | (d', _, true) => d'
        | (d', chunk', false) => feedLoop fuel d' chunk'

/-- `Feed`. -/
def feed (d : FrameDecoder) (chunk : Bytes) : FrameDecoder :=
  if d.isError then d else feedLoop (2 * chunk.length + 1) d chunk

/-- `MarkEos`. -/
def markEos (d : FrameDecoder) : FrameDecoder :=
  if d.state = .error ∨ d.state = .done then d
  else if d.state = .awaitingHeader ∧ d.headerBytes = 0 then d
  else d.setError (text "stream ended with incomplete message")

/-- `TakePayload`: the payload, and the decoder whose buffer was moved from. -/
def takePayload (d : FrameDecoder) : Bytes × FrameDecoder := (d.payload, { d with payload := [] })

/-- `Reset`. -/
def reset (d : FrameDecoder) : FrameDecoder :=
  { d with
    state := .awaitingHeader
    headerBytes := 0
    compressFlag := 0
    payloadLen := 0
    payload := []
    errorMessage := []
    hasMessage := false
    limitExceeded := false }

end FrameDecoder

@[simp] theorem framePrefix_length (flag : UInt8) (n : Nat) : (framePrefix flag n).length = 5 := rfl

/-- The four length bytes as a number. -/
theorem headerLength_eq (b0 b1 b2 b3 b4 : UInt8) :
    headerLength [b0, b1, b2, b3, b4] =
      b1.toNat * 16777216 + b2.toNat * 65536 + b3.toNat * 256 + b4.toNat := by
  have h1 := b1.toNat_lt
  have h2 := b2.toNat_lt
  have h3 := b3.toNat_lt
  have h4 := b4.toNat_lt
  have e3 : (b3.toNat <<< 8) ||| b4.toNat = b3.toNat * 256 + b4.toNat := by
    rw [← Nat.shiftLeft_add_eq_or_of_lt h4, Nat.shiftLeft_eq]
  have e2 : (b2.toNat <<< 16) ||| (b3.toNat * 256 + b4.toNat) =
      b2.toNat * 65536 + (b3.toNat * 256 + b4.toNat) := by
    have hlt : b3.toNat * 256 + b4.toNat < 2 ^ 16 := by omega
    rw [← Nat.shiftLeft_add_eq_or_of_lt hlt, Nat.shiftLeft_eq]
  have e1 : (b1.toNat <<< 24) ||| (b2.toNat * 65536 + (b3.toNat * 256 + b4.toNat)) =
      b1.toNat * 16777216 + (b2.toNat * 65536 + (b3.toNat * 256 + b4.toNat)) := by
    have hlt : b2.toNat * 65536 + (b3.toNat * 256 + b4.toNat) < 2 ^ 24 := by omega
    rw [← Nat.shiftLeft_add_eq_or_of_lt hlt, Nat.shiftLeft_eq]
  show (b1.toNat <<< 24) ||| (b2.toNat <<< 16) ||| (b3.toNat <<< 8) ||| b4.toNat = _
  rw [Nat.or_assoc, Nat.or_assoc, e3, e2, e1]
  omega

/-- A length below `2 ^ 32` is read back from the prefix. -/
theorem headerLength_framePrefix (flag : UInt8) {n : Nat} (hn : n < 2 ^ 32) :
    headerLength (framePrefix flag n) = n := by
  have hbyte : ∀ m : Nat, (UInt8.ofNat (m &&& 0xFF)).toNat = m % 256 := by
    intro m
    rw [show m &&& 0xFF = m % 256 from Nat.and_two_pow_sub_one_eq_mod m 8, UInt8.toNat_ofNat']
    omega
  rw [framePrefix, headerLength_eq]
  simp only [hbyte, Nat.shiftRight_eq_div_pow]
  omega

theorem encodeFrame_eq_some {flag : UInt8} {p : Bytes} (h : p.length < 2 ^ 32) :
    encodeFrame flag p = some (framePrefix flag p.length ++ p) := by
  rw [encodeFrame, if_neg (by omega)]

theorem encodeFrame_eq_none {flag : UInt8} {p : Bytes} (h : 2 ^ 32 ≤ p.length) :
    encodeFrame flag p = none := by
  rw [encodeFrame, if_pos (by omega)]

/-- The frame of a message, seen as header and payload. -/
def messageFrame (flag : UInt8) (p : Bytes) : LengthPrefix.Frame UInt8 :=
  ⟨framePrefix flag p.length, p⟩

/-- The bytes of the uncompressed frame of a message. -/
def frameOf (p : Bytes) : Bytes := (messageFrame 0 p).symbols

theorem frameOf_eq (p : Bytes) : frameOf p = framePrefix 0 p.length ++ p := rfl

theorem frameOf_ne_nil (p : Bytes) : frameOf p ≠ [] := by
  simp [frameOf_eq, framePrefix]

theorem encodeFrame_frameOf {p : Bytes} (h : p.length < 2 ^ 32) :
    encodeFrame 0 p = some (frameOf p) := encodeFrame_eq_some h

end Rpcpio.Protocol
