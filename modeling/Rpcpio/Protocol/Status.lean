import Mathlib.Algebra.Order.Ring.Nat
import Mathlib.Tactic.Common

/-!
# Byte strings and gRPC statuses

`std::string` holds arbitrary bytes, so strings are lists of bytes; `text` turns a literal of the
source into one. A `Status` has a canonical code, a message and opaque details. `fromHttpStatus` and
`http2ErrorCodeToStatusCode` are the two fallback mappings of the client.
-/

set_option autoImplicit false

namespace Rpcpio.Protocol

/-- A `std::string` or `std::vector<char>`. -/
abbrev Bytes := List UInt8

/-- The bytes of an ASCII literal of the source. -/
def text (s : String) : Bytes := s.toList.map fun c => UInt8.ofNat c.toNat

/-- `std::to_string` of a nonnegative integer. -/
def decimal (n : Nat) : Bytes := (Nat.toDigits 10 n).map fun c => UInt8.ofNat c.toNat

/-- `std::to_string` of a signed integer. -/
def decimalInt : Int → Bytes
  | .ofNat n => decimal n
  | .negSucc n => text "-" ++ decimal (n + 1)

/-- Copy `src` over the buffer from index `off` on. -/
def memcpy (buf : Bytes) (off : Nat) (src : Bytes) : Bytes :=
  buf.take off ++ src ++ buf.drop (off + src.length)

/-- Subtraction of `std::size_t` values, which wraps around. -/
def sizeSub (a b : Nat) : Nat := if b ≤ a then a - b else a + 2 ^ 64 - b

theorem sizeSub_of_le {a b : Nat} (hle : b ≤ a) : sizeSub a b = a - b := if_pos hle

/-- Bytes copied behind the first `n`, within the buffer. -/
theorem memcpy_spec (buf src : Bytes) (n : Nat) (h : n + src.length ≤ buf.length) :
    (memcpy buf n src).length = buf.length ∧
      (memcpy buf n src).take (n + src.length) = buf.take n ++ src := by
  have hn : (buf.take n).length = n := by
    rw [List.length_take]
    omega
  have hpre : (buf.take n ++ src).length = n + src.length := by rw [List.length_append, hn]
  refine ⟨?_, ?_⟩
  · rw [memcpy, List.length_append, hpre, List.length_drop]
    omega
  · rw [memcpy, ← hpre, List.take_left]

/-- The canonical status codes. -/
inductive StatusCode where
  | ok
  | cancelled
  | unknown
  | invalidArgument
  | deadlineExceeded
  | notFound
  | alreadyExists
  | permissionDenied
  | resourceExhausted
  | failedPrecondition
  | aborted
  | outOfRange
  | unimplemented
  | internal
  | unavailable
  | dataLoss
  | unauthenticated
  deriving DecidableEq, Repr

namespace StatusCode

/-- The numeric value of a code. -/
def toNat : StatusCode → Nat
  | ok => 0
  | cancelled => 1
  | unknown => 2
  | invalidArgument => 3
  | deadlineExceeded => 4
  | notFound => 5
  | alreadyExists => 6
  | permissionDenied => 7
  | resourceExhausted => 8
  | failedPrecondition => 9
  | aborted => 10
  | outOfRange => 11
  | unimplemented => 12
  | internal => 13
  | unavailable => 14
  | dataLoss => 15
  | unauthenticated => 16

/-- `StatusCodeFromInt`: unknown values become `unknown`. -/
def fromInt : Nat → StatusCode
  | 0 => ok
  | 1 => cancelled
  | 2 => unknown
  | 3 => invalidArgument
  | 4 => deadlineExceeded
  | 5 => notFound
  | 6 => alreadyExists
  | 7 => permissionDenied
  | 8 => resourceExhausted
  | 9 => failedPrecondition
  | 10 => aborted
  | 11 => outOfRange
  | 12 => unimplemented
  | 13 => internal
  | 14 => unavailable
  | 15 => dataLoss
  | 16 => unauthenticated
  | _ => unknown

theorem fromInt_toNat (c : StatusCode) : fromInt c.toNat = c := by
  cases c <;> rfl

theorem toNat_le (c : StatusCode) : c.toNat ≤ 16 := by
  cases c <;> decide

end StatusCode

/-- A status: code, message and opaque details. -/
structure Status where
  code : StatusCode
  message : Bytes
  details : Bytes
  deriving DecidableEq, Repr

namespace Status

/-- The default status. -/
def okStatus : Status := ⟨.ok, [], []⟩

/-- A status with a literal message and no details. -/
def of (code : StatusCode) (message : Bytes) : Status := ⟨code, message, []⟩

/-- `Status::ok`. -/
def isOk (s : Status) : Bool := s.code = .ok

@[simp] theorem isOk_okStatus : okStatus.isOk = true := rfl

/-- `Status::FromHttpStatus`. -/
def fromHttpStatus (http : Int) : Status :=
  let code : StatusCode :=
    if http = 400 then .internal
    else if http = 401 then .unauthenticated
    else if http = 403 then .permissionDenied
    else if http = 404 then .unimplemented
    else if http = 429 then .unavailable
    else if http = 502 then .unavailable
    else if http = 503 then .unavailable
    else if http = 504 then .unavailable
    else .unknown
  of code (text "HTTP " ++ decimalInt http)

/-- No HTTP status maps to OK: a response without `grpc-status` never succeeds. -/
theorem fromHttpStatus_not_ok (http : Int) : (fromHttpStatus http).isOk = false := by
  unfold fromHttpStatus
  dsimp only
  split_ifs <;> rfl

end Status

/-- `Http2ErrorCodeToStatusCode`. -/
def http2ErrorCodeToStatusCode (ec : Nat) : StatusCode :=
  match ec with
  | 0x0 => .internal
  | 0x1 | 0x2 => .internal
  | 0x3 | 0x4 => .internal
  | 0x5 => .internal
  | 0x6 => .resourceExhausted
  | 0x7 => .unavailable
  | 0x8 => .cancelled
  | 0x9 | 0xA | 0xB => .resourceExhausted
  | 0xD => .unimplemented
  | _ => .internal

/-- A stream reset is never reported as success. -/
theorem http2ErrorCodeToStatusCode_ne_ok (ec : Nat) : http2ErrorCodeToStatusCode ec ≠ .ok := by
  simp only [http2ErrorCodeToStatusCode]
  split <;> decide

/-! ## Errors of the transport

`AsioErrorToStatusCode` compares the bare values of error codes, whatever their category; the values
are those of Linux and its resolver.
-/

namespace AsioError

def connectionRefused : Int := 111
def connectionReset : Int := 104
def brokenPipe : Int := 32
def networkDown : Int := 100
def networkReset : Int := 102
def networkUnreachable : Int := 101
def timedOut : Int := 110
def operationAborted : Int := 125
def eof : Int := 2
def hostNotFound : Int := 1
def hostNotFoundTryAgain : Int := 2

end AsioError

/-- `AsioErrorToStatusCode`. -/
def asioErrorToStatusCode (ecValue : Int) (isConnection : Bool) : StatusCode :=
  if ecValue = AsioError.connectionRefused ∨ ecValue = AsioError.connectionReset ∨
      ecValue = AsioError.brokenPipe ∨ ecValue = AsioError.networkDown ∨
      ecValue = AsioError.networkReset ∨ ecValue = AsioError.networkUnreachable then .unavailable
  else if ecValue = AsioError.timedOut then .deadlineExceeded
  else if ecValue = AsioError.operationAborted then .cancelled
  else if ecValue = AsioError.eof then (if isConnection then .unavailable else .internal)
  else if ecValue = AsioError.hostNotFound ∨ ecValue = AsioError.hostNotFoundTryAgain then
    .unavailable
  else .internal

/-- A transport error is never reported as success. -/
theorem asioErrorToStatusCode_ne_ok (ecValue : Int) (isConnection : Bool) :
    asioErrorToStatusCode ecValue isConnection ≠ .ok := by
  simp only [asioErrorToStatusCode]
  split_ifs <;> decide

end Rpcpio.Protocol
