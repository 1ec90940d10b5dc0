import Rpcpio.Protocol.Status

/-!
# The `grpc-timeout` header

`parseTimeout` reads at most eight digits and a unit, in nanoseconds. `formatTimeout` writes a duration
in the finest unit that fits in eight digits, rounded up, unless the next coarser unit is exact.
`parseTimeoutChecked` computes what `parseTimeout` does and gives up where `std::uint64_t` would wrap.
-/

set_option autoImplicit false

namespace Rpcpio.Protocol

/-- `kMaxDigits`. -/
def kMaxDigits : Nat := 8

/-- The digit loop of `ParseTimeout`; `none` models its `return std::nullopt`. -/
def timeoutDigits (val : Nat) : Bytes → Option Nat
  | [] => some val
  | c :: cs => if c < 48 ∨ 57 < c then none else timeoutDigits (val * 10 + (c.toNat - 48)) cs

/-- The nanoseconds of a unit. -/
def unitNanoseconds (unit : UInt8) : Option Nat :=
  if unit = 72 then some 3600000000000
  else if unit = 77 then some 60000000000
  else if unit = 83 then some 1000000000
  else if unit = 109 then some 1000000
  else if unit = 117 then some 1000
  else if unit = 110 then some 1
  else none

/-- `ParseTimeout`, in nanoseconds. -/
def parseTimeout (s : Bytes) : Option Nat :=
  match s.getLast? with
  | none => none
  | some unit =>
      let digits := s.dropLast
      if digits.isEmpty ∨ kMaxDigits < digits.length then none
      else
        match timeoutDigits 0 digits, unitNanoseconds unit with
        | some val, some nsPer => if (2 ^ 63 - 1) / nsPer < val then none else some (val * nsPer)
        | _, _ => none

example : parseTimeout (text "250m") = some 250000000 := by decide

/-- What `parseTimeout` makes of digits and a last byte. -/
theorem parseTimeout_append (digits : Bytes) (unit : UInt8) :
    parseTimeout (digits ++ [unit]) =
      if digits.isEmpty ∨ kMaxDigits < digits.length then none
      else
        match timeoutDigits 0 digits, unitNanoseconds unit with
        | some val, some nsPer => if (2 ^ 63 - 1) / nsPer < val then none else some (val * nsPer)
        | _, _ => none := by
  rw [parseTimeout, List.getLast?_concat]
  simp only [List.dropLast_concat]

/-! ## The checked reading -/

/-- A value of `std::uint64_t`; `none` models a computation that would wrap. -/
def word (n : Nat) : Option Nat := if n < 2 ^ 64 then some n else none

/-- `timeoutDigits` with every intermediate value checked. -/
def timeoutDigitsChecked (val : Nat) : Bytes → Option (Option Nat)
  | [] => some (some val)
  | c :: cs =>
      if c < 48 ∨ 57 < c then some none
      else do
        let tens ← word (val * 10)
        let next ← word (tens + (c.toNat - 48))
        timeoutDigitsChecked next cs

/-- `parseTimeout` with every intermediate value checked. -/
def parseTimeoutChecked (s : Bytes) : Option (Option Nat) :=
  match s.getLast? with
  | none => some none
  | some unit =>
      let digits := s.dropLast
      if digits.isEmpty ∨ kMaxDigits < digits.length then some none
      else do
        let val ← timeoutDigitsChecked 0 digits
        match val, unitNanoseconds unit with
        | some val, some nsPer =>
            if (2 ^ 63 - 1) / nsPer < val then some none else (word (val * nsPer)).map some
        | _, _ => some none

theorem parseTimeoutChecked_append (digits : Bytes) (unit : UInt8) :
    parseTimeoutChecked (digits ++ [unit]) =
      if digits.isEmpty ∨ kMaxDigits < digits.length then some none
      else
        (timeoutDigitsChecked 0 digits).bind fun val =>
          match val, unitNanoseconds unit with
          | some val, some nsPer =>
              if (2 ^ 63 - 1) / nsPer < val then some none else (word (val * nsPer)).map some
          | _, _ => some none := by
  rw [parseTimeoutChecked, List.getLast?_concat]
  simp only [List.dropLast_concat]
  rfl

/-! ## Formatting -/

/-- `kMaxTimeoutValue`. -/
def kMaxTimeoutValue : Nat := 99999999

/-- `Unit`: a symbol and the nanoseconds it stands for. -/
structure TimeoutUnit where
  sym : UInt8
  nsPer : Nat
deriving DecidableEq

/-- `kUnits`. -/
def kUnits : List TimeoutUnit :=
  [⟨110, 1⟩, ⟨117, 1000⟩, ⟨109, 1000000⟩, ⟨83, 1000000000⟩, ⟨77, 60000000000⟩,
    ⟨72, 3600000000000⟩]

/-- `val` of the loop of `FormatTimeout`, in `std::uint64_t`. -/
def timeoutValue (ns nsPer : Nat) : Nat := (ns + nsPer - 1) % 2 ^ 64 / nsPer

/-- The loop of `FormatTimeout` from a unit on. -/
def formatUnits (ns : Nat) : List TimeoutUnit → Bytes
  | [] => decimal kMaxTimeoutValue ++ text "H"
  | u :: coarser =>
      let val := timeoutValue ns u.nsPer
      if kMaxTimeoutValue < val then formatUnits ns coarser
      -- `has_coarser`, and the next unit is exact
      else if coarser.head?.any fun next => ns % next.nsPer = 0 then formatUnits ns coarser
      else decimal val ++ [u.sym]

/-- `FormatTimeout` of a number of nanoseconds. -/
def formatTimeout (duration : Int) : Bytes :=
  if duration ≤ 0 then [] else formatUnits duration.toNat kUnits

example : formatTimeout 60000000000 = text "1M" := by decide

end Rpcpio.Protocol
