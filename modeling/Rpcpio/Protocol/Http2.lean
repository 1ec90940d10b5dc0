import Rpcpio.Protocol.MetadataCodec

/-!
# The interface of nghttp2-asio

The calls that the call states make on the request and response handles, the header block of a
response, and what a body generator returns. What the session does with them is the transport's
business: each component states what it assumes of it.
-/

set_option autoImplicit false

namespace Rpcpio.Protocol

/-- The calls a client call makes on its request handle. -/
inductive RequestCall where
  | resume
  | cancel
  deriving DecidableEq, Repr

/-- The calls a server call makes on its response handle. -/
inductive ResponseCall where
  | writeHead (statusCode : Nat) (headers : HeaderMap)
  | endEmpty
  | endWith
  | resume
  | writeTrailer (headers : HeaderMap)
  deriving DecidableEq, Repr

/-- The status code and the header block of a response. -/
structure ResponseHead where
  statusCode : Int
  header : HeaderMap
  deriving DecidableEq, Repr

/-- What a body generator returns: bytes, the end of the data (with or without
`NGHTTP2_DATA_FLAG_NO_END_STREAM`), or `NGHTTP2_ERR_DEFERRED`. -/
inductive GeneratorResult where
  | data (bytes : Bytes)
  | eof (noEndStream : Bool)
  | deferred
  deriving DecidableEq, Repr

end Rpcpio.Protocol
