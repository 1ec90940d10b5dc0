import Rpcpio.Protocol.Status

/-!
# Message compression

The registry knows `identity` and, in a build with zlib, `gzip`. What zlib returns for a gzip stream
and an output limit is a parameter of the model.
-/

set_option autoImplicit false

namespace Rpcpio.Protocol

/-- `Encoding`. -/
inductive Encoding where
  | identity
  | gzip
  deriving DecidableEq, Repr

/-- The build: whether `RPCPIO_ENABLE_GZIP` is set, and the inflater of zlib. -/
structure Zlib where
  enabled : Bool
  inflate : Bytes → Nat → Option Bytes

/-- A build without zlib. -/
def Zlib.none : Zlib := ⟨false, fun _ _ => Option.none⟩

/-- `ParseEncoding`. -/
def parseEncoding (z : Zlib) (s : Bytes) : Option Encoding :=
  if s = text "identity" then some .identity
  else if z.enabled = true ∧ s = text "gzip" then some .gzip
  else none

/-- `AcceptEncodingValue`. -/
def acceptEncodingValue (z : Zlib) : Bytes :=
  if z.enabled then text "identity" ++ text ",gzip" else text "identity"

/-- `Decompress`. -/
def decompress (z : Zlib) (enc : Encoding) (src : Bytes) (maxOutputSize : Nat) : Option Bytes :=
  match enc with
  | .identity => if maxOutputSize < src.length then none else some src
  | .gzip => if z.enabled then z.inflate src maxOutputSize else none

end Rpcpio.Protocol
